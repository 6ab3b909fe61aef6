import Monkey.Balance
import Monkey.Proofs.Wording
import Monkey.Syntax.Spans

namespace Monkey

/-- The token as if its text stood so many bytes further on. -/
def Token.shift (bytes : Nat) (t : Token) : Token := { t with span := t.span.shift bytes }

namespace Lexeme

/-- A text that stands right after the lexeme does not carry it on. -/
def EndsBefore (x : Lexeme) (more : List Char) : Prop :=
  x.kind = .semicolon ∨ ¬ x.IsCut ∧ Apart more ∧ more.head? ≠ some '='

/-- The first character of two texts in a row is that of the first, unless there is none. -/
theorem head?_append_of {p : Char → Prop} {rest more : List Char} (first : ∀ c ∈ rest.head?, p c)
    (then_ : rest ≠ [] ∨ ∀ c ∈ more.head?, p c) : ∀ c ∈ (rest ++ more).head?, p c := by
  cases rest with
  | nil => exact then_.resolve_left fun some => some rfl
  | cons d rest => exact first

/-- What stands after a text that is left is not scanned, nor is what does not carry the lexeme on. -/
theorem Scanned.append {c : Char} {cs more : List Char} {x : Lexeme} (h : Scanned c cs x)
    (ends : x.rest ≠ [] ∨ x.EndsBefore more) : Scanned c (cs ++ more) { x with rest := x.rest ++ more } := by
  have apart (other : x.kind ≠ .semicolon) : x.rest ≠ [] ∨ Apart more :=
    ends.imp_right fun ends => (ends.resolve_left other).2.1
  cases h with
  | closed plain =>
    rw [List.append_assoc, List.cons_append]
    exact .closed plain
  | unclosed plain =>
    rcases ends with some | semicolon | ⟨uncut, _⟩
    · exact absurd rfl some
    · cases semicolon
    · exact absurd ⟨rfl, by rw [literal_unclosed plain]⟩ uncut
  | @word _ w rest start parts stops =>
    rw [List.append_assoc]
    have other : TokenKind.ofWord (String.ofList (c :: w)) ≠ .semicolon := TokenKind.ofWord_ne _ (by decide) (by decide)
    exact .word start parts (head?_append_of stops (apart other))
  | digits digit parts stops =>
    rw [List.append_assoc]
    refine .digits digit parts (head?_append_of stops ?_)
    exact (apart TokenKind.noConfusion).imp_right Apart.isDigit_eq_false
  | equal => exact .equal
  | unequal => exact .unequal
  | @sign _ rest kind sign single =>
    refine .sign sign fun twice next => ?_
    have other : kind ≠ .semicolon := by
      rintro rfl
      rcases twice with rfl | rfl <;> cases sign
    refine head?_append_of (p := (· ≠ '=')) ?_ ?_ '=' next rfl
    · rintro d first rfl
      exact single twice first
    · refine ends.imp_right fun ends d first => ?_
      rintro rfl
      exact (ends.resolve_left other).2.2 first
  | illegal quote start digit unsigned => exact .illegal quote start digit unsigned

end Lexeme

namespace Lexer

section FollowedBy

/-- The lexer when more text stands after its own. -/
def followedBy (l : Lexer) (more : List Char) : Lexer := { l with rest := l.rest ++ more }

/-- The lexer on the text that follows. -/
def behind (l : Lexer) (more : List Char) : Lexer := { l with rest := more, offset := l.offset + byteSize l.rest }

/-- What stands after the text does not carry the last of its tokens on. -/
def EndsBefore (l : Lexer) (more : List Char) : Prop := ∀ x ∈ (lexemes l.rest).getLast?, x.EndsBefore more

/-- The tokens of the lexer are none, or the last of them is a semicolon. -/
def Settled (l : Lexer) : Prop := ∀ t ∈ l.tokens.getLast?, t.kind = .semicolon

variable {l : Lexer} {more : List Char}

theorem exhausted_next (l : Lexer) : l.next.2.exhausted = l.exhausted := by
  rw [next, scan]
  split <;> rfl

theorem behind_skip (more : List Char) (n : Nat) : (l.skip n).behind more = l.behind more := by
  induction n with
  | zero => rfl
  | succ n ih => rw [← ih, skip, behind, offset_next, exhausted_next, behind]

/-- Behind the tokens of its own text the lexer goes on with the text that follows. -/
theorem next_followedBy_of_nil (none : l.tokens = []) (more : List Char) :
    (l.followedBy more).next = (l.behind more).next := by
  have eof : l.next.1.kind = .eof := by
    by_contra here
    rw [tokens_of_ne_eof here] at none
    cases none
  have all := isBlank_of_eof eof
  have skipped : (l.followedBy more).skipBlanks = (l.behind more).skipBlanks := by
    rw [skipBlanks, skipBlanks, followedBy, behind, List.dropWhile_append_of_pos all, List.takeWhile_append_of_pos all,
      List.length_append, byteSize_of_blank all, Nat.add_assoc]
  rw [next, next, skipped]

namespace EndsBefore

theorem skip (ends : l.EndsBefore more) (n : Nat) : (l.skip n).EndsBefore more := by
  induction n with
  | zero => exact ends
  | succ n ih =>
    intro x last
    rw [Lexer.skip] at last
    cases skipped : (l.skip n).rest.dropWhile isBlank with
    | nil =>
      obtain ⟨empty, stay⟩ := next_of_eof (next_kind_eq_eof_iff.2 skipped)
      rw [stay, empty, lexemes_of_nil rfl] at last
      cases last
    | cons c cs =>
      have all := lexemes_of_cons skipped
      rw [next_of_visible skipped] at last
      refine ih x ?_
      rw [all, List.getLast?_cons, Option.mem_def.1 last]
      rfl

theorem next_followedBy (ends : l.EndsBefore more) (some : l.tokens ≠ []) :
    (l.followedBy more).next = (l.next.1, l.next.2.followedBy more) := by
  cases skipped : l.rest.dropWhile isBlank with
  | nil => exact absurd (tokens_of_eof (next_kind_eq_eof_iff.2 skipped)) some
  | cons c cs =>
    have parts : l.rest ++ more = l.rest.takeWhile isBlank ++ c :: (cs ++ more) := by
      rw [← List.cons_append, ← skipped, ← List.append_assoc, List.takeWhile_append_dropWhile]
    have visible : ∀ d ∈ (c :: (cs ++ more)).head?, isBlank d = false := by
      rintro _ ⟨⟩
      exact visible_of_dropWhile skipped
    obtain ⟨blanks, rest⟩ := span_append (List.all_takeWhile (p := isBlank) (l := l.rest)) visible
    rw [← parts] at blanks rest
    have offset : (l.followedBy more).skipBlanks.offset = l.skipBlanks.offset := by
      rw [skipBlanks, skipBlanks]
      simp only [followedBy, blanks]
    have apart : (Lexeme.scan c cs).rest ≠ [] ∨ (Lexeme.scan c cs).EndsBefore more := by
      refine Classical.or_iff_not_imp_left.2 fun none => ends _ ?_
      rw [lexemes_of_cons skipped, Classical.not_not.1 none, lexemes_of_nil rfl]
      rfl
    rw [next_of_visible skipped, next_of_visible (l := l.followedBy more) rest,
      ((Lexeme.scanned_scan c cs).append apart).scan_eq, offset]
    rfl

/-- What follows the text changes none of its tokens. -/
theorem skip_followedBy (ends : l.EndsBefore more) {n : Nat} (within : n ≤ l.tokens.length) :
    (l.followedBy more).skip n = (l.skip n).followedBy more := by
  induction n with
  | zero => rfl
  | succ n ih =>
    have some : (l.skip n).tokens ≠ [] := by
      rw [tokens_skip, Ne, List.drop_eq_nil_iff]
      omega
    rw [Lexer.skip, ih (by omega), (ends.skip n).next_followedBy some, Lexer.skip]

theorem tokens_followedBy (ends : l.EndsBefore more) :
    (l.followedBy more).tokens = l.tokens ++ (l.behind more).tokens := by
  fun_induction tokens l with
  | case1 l eof => exact tokens_congr (next_followedBy_of_nil (tokens_of_eof eof) more)
  | case2 l here ih =>
    have some : l.tokens ≠ [] := by
      rw [tokens_of_ne_eof here]
      exact List.cons_ne_nil _ _
    have next := ends.next_followedBy some
    have moved : l.next.2.behind more = l.behind more := behind_skip more 1
    rw [tokens_of_ne_eof (by rw [next]; exact here), next, ih (ends.skip 1), moved, List.cons_append]

theorem next_skip (ends : l.EndsBefore more) {n : Nat} (within : n < l.tokens.length) :
    ((l.followedBy more).skip n).next.1 = (l.skip n).next.1 := by
  have some : (l.skip n).tokens ≠ [] := by
    rw [tokens_skip, Ne, List.drop_eq_nil_iff]
    omega
  rw [ends.skip_followedBy (Nat.le_of_lt within), (ends.skip n).next_followedBy some]

theorem next_behind (ends : l.EndsBefore more) :
    ((l.followedBy more).skip l.tokens.length).next = (l.behind more).next := by
  have none : (l.skip l.tokens.length).tokens = [] := by rw [tokens_skip, List.drop_length]
  rw [ends.skip_followedBy (Nat.le_refl _), next_followedBy_of_nil none, behind_skip]

end EndsBefore

namespace Settled

/-- Nothing carries a semicolon on. -/
theorem endsBefore (settled : l.Settled) (more : List Char) : l.EndsBefore more := by
  intro x last
  have same := congrArg List.getLast? l.wording_tokens
  rw [List.getLast?_map, List.getLast?_map, Option.mem_def.1 last] at same
  obtain ⟨t, last', wording⟩ := Option.map_eq_some_iff.1 same
  have kind : t.kind = x.kind := congrArg Prod.fst wording
  exact .inl (kind ▸ settled t last')

theorem skip (settled : l.Settled) (n : Nat) : (l.skip n).Settled := by
  intro t last
  rw [tokens_skip, List.getLast?_drop] at last
  split at last
  · cases last
  · exact settled t last

/-- The last of the tokens is a semicolon. -/
theorem kind_last (settled : l.Settled) {n : Nat} (last : n + 1 = l.tokens.length) :
    (l.skip n).next.1.kind = .semicolon := by
  refine settled.skip n _ ?_
  have one : (l.skip n).tokens.length = 1 := by
    rw [tokens_skip, List.length_drop]
    omega
  have here : (l.skip n).next.1.kind ≠ .eof := fun eof => by
    rw [tokens_of_eof eof] at one
    cases one
  rw [tokens_of_ne_eof here] at one ⊢
  rw [List.length_eq_zero_iff.1 (Nat.succ.inj one)]
  rfl

end Settled

end FollowedBy

section Braces

variable {l : Lexer} {j : Nat}

theorem kind_of_braces (h : l.rest = List.replicate j '}') :
    l.tokens.length = j ∧ ∀ b ∈ l.tokens, b.kind = .rbrace := by
  induction j generalizing l with
  | zero =>
    have none := tokens_length_le l
    rw [h] at none
    rw [List.length_eq_zero_iff.1 (Nat.le_zero.1 none)]
    exact ⟨rfl, nofun⟩
  | succ j ih =>
    have sign : signKind? '}' = some .rbrace := rfl
    obtain ⟨b, l', kind, _, rest, tokens⟩ := scans_sign h sign nofun
    obtain ⟨count, kinds⟩ := ih rest
    rw [tokens]
    exact ⟨congrArg (· + 1) count, List.forall_mem_cons.2 ⟨kind, kinds⟩⟩

/-- Braces behind the text are tokens of their own. -/
theorem exists_tokens_followedBy_braces (ends : l.EndsBefore (List.replicate j '}')) :
    ∃ braces, (l.followedBy (List.replicate j '}')).tokens = l.tokens ++ braces ∧ braces.length = j ∧
      ∀ b ∈ braces, b.kind = .rbrace :=
  ⟨_, ends.tokens_followedBy, kind_of_braces rfl⟩

end Braces

section Moved

/-- The lexer as if its text stood so many bytes further on. -/
def moved (l : Lexer) (bytes : Nat) : Lexer := { l with offset := l.offset + bytes }

variable {l : Lexer} {bytes : Nat}

theorem scan_moved (room : l.offset + byteSize l.rest + bytes ≤ Span.maxOffset) :
    (l.moved bytes).scan = (l.scan.1.shift bytes, l.scan.2.moved bytes) := by
  have held (offset : Nat) (le : offset ≤ l.offset + byteSize l.rest) :
      min (offset + bytes) Span.maxOffset = min offset Span.maxOffset + bytes := by omega
  unfold scan moved
  dsimp only
  split
  · next eq =>
    have point := held l.offset (by omega)
    rw [point]
    rfl
  · next c cs eq =>
    have parts := congrArg byteSize (Lexeme.scan_text_append_rest c cs)
    rw [byteSize_append, ← eq] at parts
    have start := held l.offset (by omega)
    have stop := held (l.offset + (Lexeme.scan c cs).byteLength) (by unfold Lexeme.byteLength; omega)
    simp only [Token.shift, Span.shift, Span.ofRange, Nat.add_right_comm _ bytes, start, stop]

theorem next_moved (room : l.offset + byteSize l.rest + bytes ≤ Span.maxOffset) :
    (l.moved bytes).next = (l.next.1.shift bytes, l.next.2.moved bytes) := by
  have blanks : (l.moved bytes).skipBlanks = l.skipBlanks.moved bytes := by
    simp only [skipBlanks, moved, Nat.add_right_comm]
  rw [← offset_skipBlanks] at room
  rw [next, next, blanks, scan_moved room]

/-- The text has the same tokens further on. -/
theorem skip_moved (room : l.offset + byteSize l.rest + bytes ≤ Span.maxOffset) (n : Nat) :
    (l.moved bytes).skip n = (l.skip n).moved bytes := by
  induction n with
  | zero => rfl
  | succ n ih =>
    rw [← offset_skip l n] at room
    rw [skip, ih, next_moved room, skip]

end Moved

end Lexer

/-- The end token is no brace. -/
theorem balance_lex (source : String) : balance (lex source) = balance (Lexer.ofString source).tokens := by
  rw [lex_eq, balance_append]
  exact Int.add_zero _

end Monkey
