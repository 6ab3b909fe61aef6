import Mathlib.Data.List.Induction
import Mathlib.Data.List.ReduceOption
import Monkey.Proofs.TokenPlaces
import Monkey.Proofs.ErrorPositions

namespace Monkey

open Lexer (ofString)

/-- The token of the row with the index; behind the last one it is that one again. -/
def clampedAt? (row : List Token) (i : Nat) : Option Token := row[min i (row.length - 1)]?

namespace Lexer

/-- What a lexer is asked for: the next token, or the next item of the row that the end token closes. -/
inductive Request where
  | next | pull
  deriving DecidableEq

def answer (l : Lexer) : Request → Option Token × Lexer
  | .next => (some l.next.1, l.next.2)
  | .pull => l.pull

/-- The lexer after the requests. -/
def after (l : Lexer) (requests : List Request) : Lexer := requests.foldl (fun l r => (l.answer r).2) l

/-- The answers to the requests, one after the other. -/
def answers (l : Lexer) : List Request → List (Option Token)
  | [] => []
  | r :: rs => (l.answer r).1 :: (l.answer r).2.answers rs

/-- The tokens among the answers. -/
def given (l : Lexer) (requests : List Request) : List Token := (l.answers requests).reduceOption

/-- A `pull` among the requests was answered with the end token. -/
def PulledEnd (l : Lexer) (requests : List Request) : Prop :=
  ∃ t, (Request.pull, some t) ∈ requests.zip (l.answers requests) ∧ t.kind = .eof

section Requests

variable {source : String} {l : Lexer} {requests : List Request}

@[simp] theorem after_concat (l : Lexer) (requests : List Request) (r : Request) :
    l.after (requests ++ [r]) = ((l.after requests).answer r).2 := by
  rw [after, List.foldl_append]
  rfl

theorem answers_append (l : Lexer) (requests others : List Request) :
    l.answers (requests ++ others) = l.answers requests ++ (l.after requests).answers others := by
  induction requests generalizing l with
  | nil => rfl
  | cons r requests ih =>
    rw [List.cons_append, answers, ih, answers, List.cons_append]
    rfl

@[simp] theorem length_answers (l : Lexer) (requests : List Request) :
    (l.answers requests).length = requests.length := by
  induction requests generalizing l with
  | nil => rfl
  | cons r requests ih => rw [answers, List.length_cons, ih, List.length_cons]

@[simp] theorem given_concat (l : Lexer) (requests : List Request) (r : Request) :
    l.given (requests ++ [r]) = l.given requests ++ ((l.after requests).answer r).1.toList := by
  rw [given, answers_append, List.reduceOption_append]
  exact congrArg (l.given requests ++ ·) (List.reduceOption_singleton _)

theorem pulledEnd_concat (l : Lexer) (requests : List Request) (r : Request) :
    l.PulledEnd (requests ++ [r]) ↔
      l.PulledEnd requests ∨ r = .pull ∧ ∃ t, ((l.after requests).answer r).1 = some t ∧ t.kind = .eof := by
  have zip : (requests ++ [r]).zip (l.answers (requests ++ [r])) =
      requests.zip (l.answers requests) ++ [(r, ((l.after requests).answer r).1)] := by
    rw [answers_append, List.zip_append (length_answers l requests).symm]
    rfl
  simp only [PulledEnd, zip, List.mem_append, List.mem_singleton, Prod.mk.injEq]
  grind

/-- Whether `pull` has given the end token makes no difference to the token that comes next. -/
theorem next_exhausted (l : Lexer) (b : Bool) :
    { l with exhausted := b }.next = (l.next.1, { l.next.2 with exhausted := b }) := by
  change scan { l.skipBlanks with exhausted := b } = _
  rw [next, scan, scan]
  cases l.skipBlanks.rest <;> rfl

/-- The lexer of the text after some tokens, and after a `pull` that gave the end token or before it. -/
def standing (source : String) (tokens : Nat) (exhausted : Bool) : Lexer :=
  { (ofString source).skip tokens with exhausted }

theorem next_standing (source : String) (n : Nat) (b : Bool) :
    (standing source n b).next = (tokenAt source n, standing source (n + 1) b) :=
  next_exhausted _ b

/-- After `pull` has given the end token it gives nothing, and the lexer stays as it is. -/
theorem pull_exhausted (source : String) (n : Nat) :
    (standing source n true).pull = (none, standing source n true) := rfl

theorem pull_standing (source : String) (n : Nat) :
    (standing source n false).pull =
      (some (tokenAt source n), standing source (n + 1) ((tokenAt source n).kind == .eof)) := by
  rw [pull, next_standing]
  rfl

/-- Where a lexer stands after requests: behind the tokens it gave, which are those of the text in order. -/
structure Served (source : String) (requests : List Request) (n : Nat) (b : Bool) : Prop where
  stands : (ofString source).after requests = standing source n b
  given : (ofString source).given requests = (List.range n).map (tokenAt source)
  exhausted : b = true ↔ (ofString source).PulledEnd requests

theorem Served.concat {n : Nat} {b : Bool} (served : Served source requests n b) (r : Request) :
    ∃ n' b', Served source (requests ++ [r]) n' b' := by
  have gives (b' : Bool)
      (answer : (standing source n b).answer r = (some (tokenAt source n), standing source (n + 1) b'))
      (ends : b' = true ↔ b = true ∨ r = .pull ∧ (tokenAt source n).kind = .eof) :
      Served source (requests ++ [r]) (n + 1) b' := by
    refine ⟨?_, ?_, ?_⟩
    · rw [after_concat, served.stands, answer]
    · rw [given_concat, served.stands, answer, served.given, List.range_succ, List.map_append]
      rfl
    · rw [pulledEnd_concat, served.stands, answer, ends, served.exhausted]
      simp
  cases r with
  | next => exact ⟨n + 1, b, gives b (congrArg (fun x => (some x.1, x.2)) (next_standing source n b)) (by simp)⟩
  | pull =>
    cases b with
    | false => exact ⟨n + 1, _, gives _ (pull_standing source n) (by simp)⟩
    | true =>
      have answer : (standing source n true).answer .pull = (none, standing source n true) := pull_exhausted source n
      refine ⟨n, true, ?_, ?_, ?_⟩
      · rw [after_concat, served.stands, answer]
      · rw [given_concat, served.stands, answer, served.given]
        simp
      · rw [pulledEnd_concat, ← served.exhausted]
        simp

/-- By induction on the requests, the last one taken off. -/
theorem exists_served (source : String) (requests : List Request) : ∃ n b, Served source requests n b := by
  induction requests using List.reverseRecOn with
  | nil =>
    refine ⟨0, false, rfl, rfl, ?_⟩
    simp [PulledEnd]
  | append_singleton requests r ih =>
    obtain ⟨n, b, served⟩ := ih
    exact served.concat r

end Requests

end Lexer

theorem clampedAt?_lex (source : String) (i : Nat) : clampedAt? (lex source) i = some (tokenAt source i) := by
  have size : (lex source).length - 1 = (ofString source).tokens.length := by
    rw [lex_eq, List.length_append, List.length_singleton, Nat.add_sub_cancel]
  rw [clampedAt?, size, lex_eq]
  exact Lexer.next_skip (ofString source) i

/-- Whatever the order in which a lexer is asked for the next token and for the next item, the tokens that it gives are
those of the text, in order, and then the end token over and over. Only an item can be missing: there is none once an
item was the end token, and the lexer then stays as it is. A cursor that has moved on by `n` tokens holds those with the
indices `n` and `n + 1`. -/
theorem lazy_views_agree (source : String) :
    (∀ requests : List Lexer.Request,
      ((ofString source).given requests).map some =
          (List.range ((ofString source).given requests).length).map (clampedAt? (lex source)) ∧
        ∀ r,
          ((((ofString source).after requests).answer r).1 = none ↔
              r = .pull ∧ (ofString source).PulledEnd requests) ∧
            ((((ofString source).after requests).answer r).1 = none →
              (((ofString source).after requests).answer r).2 = (ofString source).after requests)) ∧
      ∀ n, some ((Cursor.ofString source).advanced n).current = clampedAt? (lex source) n ∧
        some ((Cursor.ofString source).advanced n).peek = clampedAt? (lex source) (n + 1) := by
  refine ⟨fun requests => ?_, fun n => ?_⟩
  · obtain ⟨n, b, served⟩ := Lexer.exists_served source requests
    refine ⟨?_, fun r => ?_⟩
    · rw [served.given, List.map_map, List.length_map, List.length_range]
      exact List.map_congr_left fun i _ => (clampedAt?_lex source i).symm
    · rw [served.stands, ← served.exhausted]
      cases r with
      | next => simp [Lexer.answer]
      | pull => cases b <;> simp [Lexer.answer, Lexer.pull_standing, Lexer.pull_exhausted]
  · rw [Cursor.ofString, Cursor.advanced_ofLexer, clampedAt?_lex, clampedAt?_lex]
    exact ⟨rfl, rfl⟩

end Monkey
