import Monkey.Proofs.LayoutEvaluation
import Monkey.Proofs.LayoutParsing

namespace Monkey

theorem Outcome.shown_value_bare (v : Value) : (Outcome.value v.bare).shown = (Outcome.value v).shown := by
  rw [shown, shown, v.kind_bare, v.inspect_bare]

section Mistakes

variable {source source' : String} {errors errors' : List ParseError}
  (same : List.Forall₂ (SameMistake source source') errors errors')
include same

theorem errors_eq_nil_iff : errors = [] ↔ errors' = [] := by
  cases same <;> simp

theorem messages_eq : errors.map (·.message) = errors'.map (·.message) := by
  induction same with
  | nil => rfl
  | cons first _ ih => rw [List.map_cons, List.map_cons, first.message, ih]

end Mistakes

namespace Session

/-- The second session is the first with a bare state. -/
structure LaidBare (s t : Session) : Prop where
  state : s.state.LaidBare t.state
  interpreter : t.interpreter = s.interpreter
  root : t.root = s.root
  sources : t.sources = s.sources

/-- Only the spans in function literals tell the sessions apart. -/
def Alike (s s' : Session) : Prop := ∃ t : Session, s.LaidBare t ∧ s'.LaidBare t

theorem Alike.refl (s : Session) : s.Alike s := by
  obtain ⟨store, laid⟩ := s.state.store.exists_laidBare
  let t : Session := { s with state := { s.state with store } }
  have bare : s.LaidBare t := ⟨⟨laid, rfl, rfl⟩, rfl, rfl, rfl⟩
  exact ⟨t, bare, bare⟩

variable {s s' t : Session}

theorem LaidBare.load (h : s.LaidBare t) : s.load.2.LaidBare t.load.2 :=
  ⟨h.state, h.interpreter, h.root, congrArg (· + 1) h.sources⟩

/-- The bare program looks the same in the session laid bare. -/
theorem LaidBare.evalNode (h : s.LaidBare t) (p : Program) (site : Evaluator.Site) :
    (t.evalNode (.program p.bare) site).1.shown = (s.evalNode (.program p) site).1.shown ∧
      (s.evalNode (.program p) site).2.LaidBare (t.evalNode (.program p.bare) site).2 := by
  have runs := s.interpreter.evalProgram_bare p site h.state
  have interpreter : t.interpreter.evalProgram p.bare site t.state = s.interpreter.evalProgram p.bare site t.state := by
    rw [h.interpreter]
  unfold Session.evalNode Interpreter.evalNode
  dsimp only
  rw [interpreter]
  generalize s.interpreter.evalProgram p site s.state = found at runs ⊢
  generalize s.interpreter.evalProgram p.bare site t.state = found' at runs ⊢
  cases runs with
  | none => exact ⟨rfl, h⟩
  | @some x y ends =>
    obtain ⟨v, state⟩ := x
    obtain ⟨w, state'⟩ := y
    obtain ⟨states, same⟩ := ends
    have same : w = v.map Value.bare := same
    subst same
    have after : { s with state }.LaidBare { t with state := state' } := ⟨states, h.interpreter, h.root, h.sources⟩
    cases v with
    | some v => exact ⟨Outcome.shown_value_bare v, after⟩
    | none => exact ⟨rfl, after⟩

/-- Sources with the same wording look the same, and leave sessions that only spans tell apart. -/
theorem Alike.evalSource (h : s.Alike s') {source source' : String} (same : wording source = wording source') :
    (s.evalSource source).1.shown = (s'.evalSource source').1.shown ∧
      (s.evalSource source).2.Alike (s'.evalSource source').2 := by
  obtain ⟨t, left, right⟩ := h
  obtain ⟨program, errors⟩ := parse_alike same
  have number : s'.load.1 = s.load.1 := right.sources.symm.trans left.sources
  have root : s'.load.2.root = s.load.2.root := right.root.symm.trans left.root
  by_cases clean : (parse source).errors = []
  · have clean' : (parse source').errors = [] := (errors_eq_nil_iff errors).1 clean
    rw [evalSource_of_clean s clean, evalSource_of_clean s' clean', number, root]
    obtain ⟨shown, after⟩ := left.load.evalNode (parse source).program ⟨s.load.1, s.load.2.root⟩
    obtain ⟨shown', after'⟩ := right.load.evalNode (parse source').program ⟨s.load.1, s.load.2.root⟩
    rw [← program] at shown' after'
    exact ⟨shown.symm.trans shown', _, after, after'⟩
  · have wrong' : (parse source').errors ≠ [] := fun none => clean ((errors_eq_nil_iff errors).2 none)
    rw [evalSource_of_errors s clean, evalSource_of_errors s' wrong']
    exact ⟨congrArg Shown.parseErrors (messages_eq errors), t, left, right⟩

/-- What the sources look like when they are evaluated one after another, and the session after them. -/
def evalSources (s : Session) : List String → List Shown × Session
  | [] => ([], s)
  | source :: sources =>
    let (outcome, s) := s.evalSource source
    let (others, s) := s.evalSources sources
    (outcome.shown :: others, s)

/-- The layout of earlier sources has no part in what comes of later ones. -/
theorem Alike.evalSources (h : s.Alike s') {sources sources' : List String}
    (same : List.Forall₂ (fun source source' => wording source = wording source') sources sources') :
    (s.evalSources sources).1 = (s'.evalSources sources').1 ∧
      (s.evalSources sources).2.Alike (s'.evalSources sources').2 := by
  induction same generalizing s s' with
  | nil => exact ⟨rfl, h⟩
  | cons first _ ih =>
    obtain ⟨shown, after⟩ := h.evalSource first
    obtain ⟨others, last⟩ := ih after
    rw [Session.evalSources, Session.evalSources]
    dsimp only
    rw [shown, others]
    exact ⟨rfl, last⟩

theorem Alike.looksSame {r r' : Outcome × Session} (h : r.2.Alike r'.2) (shown : r.1.shown = r'.1.shown) :
    LooksSame r r' := by
  obtain ⟨t, left, right⟩ := h
  have store := left.state.store
  have store' := right.state.store
  exact {
    shown
    printer := left.state.printer.symm.trans right.state.printer
    root := left.root.symm.trans right.root
    bindsLocally := fun id name => (store.bindsLocally_eq id name).symm.trans (store'.bindsLocally_eq id name)
    describe := fun id => (store.describe_eq id).symm.trans (store'.describe_eq id) }

end Session

/-- Texts whose tokens have the same kinds and literals mean the same: they are read as programs that are the same but
for spans, with the same errors on the same tokens, and look the same in every session. One has the wording of the other
if it is made of the other's token texts with blanks between them. -/
theorem layout_keeps_meaning :
    (∀ source source' : String, wording source = wording source' → SameMeaning source source') ∧
      ∀ source text : String, Spaced (tokenTexts source) text → wording text = wording source := by
  refine ⟨fun source source' same => ?_, fun _ _ => wording_of_spaced⟩
  obtain ⟨program, errors⟩ := parse_alike same
  refine ⟨program, errors, fun s => ?_⟩
  obtain ⟨shown, after⟩ := (Session.Alike.refl s).evalSource same
  exact after.looksSame shown

/-- Blanks around a sign and before a string that the end of the text cuts off. -/
theorem layout_keeps_meaning_cutString :
    Spaced (tokenTexts "a=\"b") "a\n= \t\"b" ∧ wording "a\n= \t\"b" = wording "a=\"b" ∧
      SameMeaning "a\n= \t\"b" "a=\"b" := by
  obtain ⟨means, words⟩ := layout_keeps_meaning
  have texts : tokenTexts "a=\"b" = ["a", "=", "\"b"] := by
    have first : lexemes "a=\"b".toList = Lexeme.scan 'a' "=\"b".toList :: lexemes "=\"b".toList :=
      lexemes_of_cons (by decide)
    have second : lexemes "=\"b".toList = Lexeme.scan '=' "\"b".toList :: lexemes "\"b".toList :=
      lexemes_of_cons (by decide)
    have third : lexemes "\"b".toList = Lexeme.scan '"' "b".toList :: lexemes [] := lexemes_of_cons (by decide)
    have last : lexemes [] = [] := lexemes_of_nil rfl
    rw [tokenTexts, first, second, third, last]
    decide
  have spaced : Spaced (tokenTexts "a=\"b") "a\n= \t\"b" := by
    rw [texts]
    have inner : Spaced ["=", "\"b"] ("=" ++ " \t" ++ "\"b") := .cons (by decide) (by simp [isBlank]) (.last _)
    have outer : Spaced ["a", "=", "\"b"] ("a" ++ "\n" ++ ("=" ++ " \t" ++ "\"b")) :=
      .cons (by decide) (by simp [isBlank]) inner
    exact outer
  have same := words _ _ spaced
  exact ⟨spaced, same, means _ _ same⟩

end Monkey
