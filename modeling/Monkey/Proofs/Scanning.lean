import Monkey.Proofs.Tokens

namespace Monkey

/-- The text does not go on with a character that would belong to a word or number before it. -/
def Apart (cs : List Char) : Prop := ∀ c ∈ cs.head?, isWordPart c = false

theorem apart_nil : Apart [] := fun _ next => nomatch next

theorem apart_cons {c : Char} (cs : List Char) (h : isWordPart c = false) : Apart (c :: cs) := by
  intro c' next
  cases next
  exact h

theorem Apart.isDigit_eq_false {cs : List Char} (h : Apart cs) : ∀ c ∈ cs.head?, c.isDigit = false := by
  intro c next
  have outside := h c next
  simp only [isWordPart, Bool.or_eq_false_iff] at outside
  exact outside.2

theorem apart_blank (cs : List Char) : Apart (' ' :: cs) := apart_cons cs (by decide)

/-- The characters that have the property are split off, if the text after them starts with another. -/
theorem span_append {p : Char → Bool} {cs rest : List Char} (all : cs.all p)
    (stops : ∀ c ∈ rest.head?, p c = false) :
    (cs ++ rest).takeWhile p = cs ∧ (cs ++ rest).dropWhile p = rest := by
  have inside : ∀ c ∈ cs, p c := List.all_eq_true.1 all
  rw [List.takeWhile_append_of_pos inside, List.dropWhile_append_of_pos inside]
  match rest with
  | [] => simp
  | c :: rest => simp [stops c rfl]

theorem Lexeme.facts_of_sign {c : Char} {kind : TokenKind} (sign : signKind? c = some kind) :
    c ≠ '"' ∧ isWordPart c = false ∧ isBlank c = false ∧ kind ≠ .str := by
  unfold signKind? at sign
  split at sign <;> first | cases sign; done | (cases sign; decide)

theorem apart_sign {c : Char} {kind : TokenKind} (cs : List Char) (sign : signKind? c = some kind) :
    Apart (c :: cs) := apart_cons cs (Lexeme.facts_of_sign sign).2.1

namespace Lexeme

theorem scan_sign {c : Char} {cs : List Char} {kind : TokenKind} (sign : signKind? c = some kind)
    (single : c = '=' ∨ c = '!' → cs.head? ≠ some '=') : scan c cs = ⟨kind, [c], cs⟩ := by
  obtain ⟨quote, wordPart, _⟩ := facts_of_sign sign
  simp only [isWordPart, Bool.or_eq_false_iff] at wordPart
  unfold scan
  rw [if_neg (by simpa using quote), if_neg (by simp [wordPart.1]), if_neg (by simp [wordPart.2])]
  split
  · exact absurd rfl (single (.inl rfl))
  · exact absurd rfl (single (.inr rfl))
  · rw [sign, Option.getD_some]

theorem scan_word {c : Char} {w cs : List Char} (start : isWordStart c) (parts : w.all isWordPart)
    (apart : Apart cs) : scan c (w ++ cs) = ⟨.ofWord (String.ofList (c :: w)), c :: w, cs⟩ := by
  obtain ⟨taken, left⟩ := span_append parts apart
  have quote : c ≠ '"' := by
    rintro rfl
    revert start
    decide
  unfold scan
  rw [if_neg (by simpa using quote), if_pos start, word, taken, left]

theorem isWordStart_of_isDigit {c : Char} (digit : c.isDigit) : isWordStart c = false := by
  have range : 48 ≤ c.toNat ∧ c.toNat ≤ 57 := Char.isDigit_iff_toNat.1 digit
  have below {d : Char} (le : d.val ≤ c.val) : d.toNat ≤ 57 :=
    Nat.le_trans (UInt32.le_iff_toNat_le.1 le) range.2
  have upper : c.isUpper = false := decide_eq_false fun both => absurd (below both.1) (by decide)
  have lower : c.isLower = false := by
    rw [Bool.eq_false_iff]
    exact fun both => absurd (below (of_decide_eq_true (Bool.and_eq_true_iff.1 both).1)) (by decide)
  have underscore : c ≠ '_' := by
    rintro rfl
    revert range
    decide
  change ((c.isUpper || c.isLower) || c == '_') = false
  simp [upper, lower, underscore]

theorem scan_digits {c : Char} {w cs : List Char} (start : c.isDigit) (parts : w.all Char.isDigit)
    (stops : ∀ d ∈ cs.head?, d.isDigit = false) : scan c (w ++ cs) = ⟨.int, c :: w, cs⟩ := by
  obtain ⟨taken, left⟩ := span_append parts stops
  have quote : c ≠ '"' := by
    rintro rfl
    revert start
    decide
  have word := isWordStart_of_isDigit start
  unfold scan
  rw [if_neg (by simpa using quote), if_neg (by simp [word]), if_pos start, digits, taken, left]

theorem all_ne_quote {s : List Char} (plain : '"' ∉ s) : s.all (· != '"') := by
  rw [List.all_eq_true]
  intro c mem
  simp only [bne_iff_ne]
  rintro rfl
  exact plain mem

theorem scan_quoted {s cs : List Char} (plain : '"' ∉ s) :
    scan '"' (s ++ '"' :: cs) = ⟨.str, '"' :: (s ++ ['"']), cs⟩ := by
  have stops : ∀ c ∈ ('"' :: cs).head?, (c != '"') = false := by simp
  obtain ⟨taken, left⟩ := span_append (all_ne_quote plain) stops
  unfold scan
  rw [if_pos (by decide), quoted, taken, left]

end Lexeme

namespace Lexer

/-- The next token has this kind and text, and the text that is left after it is `cs`. -/
def Scans (l : Lexer) (kind : TokenKind) (text cs : List Char) : Prop :=
  ∃ (t : Token) (l' : Lexer),
    t.kind = kind ∧ t.literal = String.ofList text ∧ l'.rest = cs ∧ l.tokens = t :: l'.tokens

/-- Blanks before a token do not matter. -/
theorem exists_tokens_of_blank {l : Lexer} {cs : List Char} (h : l.rest = ' ' :: cs) :
    ∃ l' : Lexer, l'.rest = cs ∧ l.tokens = l'.tokens := by
  let l' : Lexer := { l with rest := cs, offset := l.offset + 1 }
  have same : l.skipBlanks = l'.skipBlanks := by
    unfold skipBlanks
    rw [h, List.dropWhile_cons_of_pos (by decide), List.takeWhile_cons_of_pos (by decide), List.length_cons]
    simp only [l', Nat.add_assoc, Nat.add_comm 1]
  exact ⟨l', rfl, tokens_congr (by rw [next, next, same])⟩

theorem scans_of_scan {l : Lexer} {c : Char} {cs : List Char} {x : Lexeme} (h : l.rest = c :: cs)
    (visible : isBlank c = false) (scanned : Lexeme.scan c cs = x) : l.Scans x.kind x.literal x.rest := by
  subst scanned
  have skipped : l.rest.dropWhile isBlank = c :: cs := by
    rw [h, List.dropWhile_cons_of_neg (by simp [visible])]
  have next := next_of_visible skipped
  refine ⟨l.next.1, l.next.2, ?_, ?_, ?_, tokens_of_ne_eof ?_⟩
  · rw [next]
  · rw [next]
  · rw [next]
  · rw [next]
    exact Lexeme.scan_kind_ne_eof c cs

theorem scans_sign {l : Lexer} {c : Char} {cs : List Char} {kind : TokenKind} (h : l.rest = c :: cs)
    (sign : signKind? c = some kind) (single : c = '=' ∨ c = '!' → cs.head? ≠ some '=') : l.Scans kind [c] cs := by
  obtain ⟨_, _, visible, notStr⟩ := Lexeme.facts_of_sign sign
  have scanned := scans_of_scan h visible (Lexeme.scan_sign sign single)
  unfold Lexeme.literal at scanned
  split at scanned
  · next str => exact absurd str notStr
  · exact scanned

/-- The two signs of `==` and `!=` are one token. -/
theorem scans_twoSigns {l : Lexer} {c : Char} {cs : List Char} {kind : TokenKind} (h : l.rest = c :: '=' :: cs)
    (sign : c = '=' ∧ kind = .eq ∨ c = '!' ∧ kind = .notEq) : l.Scans kind [c, '='] cs := by
  rcases sign with ⟨rfl, rfl⟩ | ⟨rfl, rfl⟩
  · exact scans_of_scan h (by decide) (x := ⟨.eq, ['=', '='], cs⟩) rfl
  · exact scans_of_scan h (by decide) (x := ⟨.notEq, ['!', '='], cs⟩) rfl

theorem exists_tokens_of_assign {l : Lexer} {cs : List Char} (h : l.rest = '=' :: cs) :
    ∃ t us, l.tokens = t :: us ∧ (t.kind = .assign ∨ t.kind = .eq) := by
  by_cases twice : cs.head? = some '='
  · obtain ⟨cs', rfl⟩ := List.head?_eq_some_iff.1 twice
    obtain ⟨t, l', kind, _, _, tokens⟩ := scans_twoSigns h (.inl ⟨rfl, rfl⟩)
    exact ⟨t, _, tokens, .inr kind⟩
  · obtain ⟨t, l', kind, _, _, tokens⟩ := scans_sign h rfl fun _ => twice
    exact ⟨t, _, tokens, .inl kind⟩

theorem isBlank_of_isWordPart {c : Char} (part : isWordPart c) : isBlank c = false := by
  rw [Bool.eq_false_iff]
  intro blank
  simp only [isBlank, Bool.or_eq_true, beq_iff_eq] at blank
  rcases blank with ((rfl | rfl) | rfl) | rfl
  all_goals revert part; decide

theorem scans_word {l : Lexer} {c : Char} {w cs : List Char} {kind : TokenKind} (h : l.rest = c :: (w ++ cs))
    (start : isWordStart c) (parts : w.all isWordPart) (apart : Apart cs)
    (word : TokenKind.ofWord (String.ofList (c :: w)) = kind) (notStr : kind ≠ .str) : l.Scans kind (c :: w) cs := by
  have visible : isBlank c = false := isBlank_of_isWordPart (by rw [isWordPart, start]; rfl)
  have scanned := scans_of_scan h visible (Lexeme.scan_word start parts apart)
  rw [word] at scanned
  unfold Lexeme.literal at scanned
  split at scanned
  · next str => exact absurd str notStr
  · exact scanned

theorem scans_keyword {l : Lexer} {w : String} {cs : List Char} (kind : TokenKind)
    (keyword : (w, kind) ∈ TokenKind.keywords) (h : l.rest = w.toList ++ cs) (apart : Apart cs) :
    l.Scans kind w.toList cs := by
  simp only [TokenKind.keywords, List.mem_cons, Prod.mk.injEq, List.not_mem_nil, or_false] at keyword
  rcases keyword with ⟨rfl, rfl⟩ | ⟨rfl, rfl⟩ | ⟨rfl, rfl⟩ | ⟨rfl, rfl⟩ | ⟨rfl, rfl⟩ | ⟨rfl, rfl⟩ | ⟨rfl, rfl⟩
  all_goals exact scans_word h (by decide) (by decide) apart rfl (by decide)

theorem scans_digits {l : Lexer} {w cs : List Char} (h : l.rest = w ++ cs) (some : w ≠ [])
    (digits : w.all Char.isDigit) (apart : Apart cs) : l.Scans .int w cs := by
  match w, some with
  | c :: w, _ =>
    simp only [List.all_cons, Bool.and_eq_true] at digits
    have visible : isBlank c = false := isBlank_of_isWordPart (by rw [isWordPart, digits.1, Bool.or_true])
    exact scans_of_scan h visible (Lexeme.scan_digits digits.1 digits.2 apart.isDigit_eq_false)

theorem scans_quoted {l : Lexer} {s cs : List Char} (h : l.rest = '"' :: (s ++ '"' :: cs)) (plain : '"' ∉ s) :
    l.Scans .str s cs := by
  have scanned := scans_of_scan h (by decide) (Lexeme.scan_quoted plain)
  have literal : Lexeme.literal ⟨.str, '"' :: (s ++ ['"']), cs⟩ = s := by
    have stops : ∀ c ∈ ['"'].head?, (c != '"') = false := by simp
    exact (span_append (Lexeme.all_ne_quote plain) stops).1
  rw [literal] at scanned
  exact scanned

/-- An operator and the blank after it. -/
theorem scans_operator {l : Lexer} {op : BinaryOp} {cs : List Char} (h : l.rest = op.symbol.toList ++ ' ' :: cs) :
    ∃ kind, Continuation.ofKind? kind = some (.binary op) ∧ l.Scans kind op.symbol.toList (' ' :: cs) := by
  cases op with
  | add => exact ⟨.plus, rfl, scans_sign h rfl (by simp)⟩
  | sub => exact ⟨.minus, rfl, scans_sign h rfl (by simp)⟩
  | mul => exact ⟨.asterisk, rfl, scans_sign h rfl (by simp)⟩
  | div => exact ⟨.slash, rfl, scans_sign h rfl (by simp)⟩
  | lt => exact ⟨.lt, rfl, scans_sign h rfl (by simp)⟩
  | gt => exact ⟨.gt, rfl, scans_sign h rfl (by simp)⟩
  | eq => exact ⟨.eq, rfl, scans_twoSigns h (.inl ⟨rfl, rfl⟩)⟩
  | notEq => exact ⟨.notEq, rfl, scans_twoSigns h (.inr ⟨rfl, rfl⟩)⟩

end Lexer

end Monkey
