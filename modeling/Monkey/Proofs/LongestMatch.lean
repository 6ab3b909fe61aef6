import Monkey.Tiling
import Monkey.Proofs.Scanning

namespace Monkey

namespace TokenKind

theorem sign_of_signKind? {c : Char} {kind : TokenKind} (sign : signKind? c = some kind) :
    kind ∈ signs ∧ kind.name.toList = [c] := by
  unfold signKind? at sign
  split at sign
  all_goals cases sign
  all_goals decide

/-- What a rule accepts, by the first character. -/
theorem Matches.of_cons {kind : TokenKind} {c : Char} {cs : List Char} (h : Matches kind (c :: cs)) :
    (signKind? c = some kind ∧ cs = []) ∨
    (cs = ['='] ∧ (c = '=' ∧ kind = .eq ∨ c = '!' ∧ kind = .notEq)) ∨
    (isWordStart c ∧ (∀ d ∈ cs, isWordPart d) ∧ kind = ofWord (String.ofList (c :: cs))) ∨
    (c.isDigit ∧ (∀ d ∈ cs, d.isDigit) ∧ kind = .int) ∨
    (c = '"' ∧ kind = .str ∧ ∃ s, '"' ∉ s ∧ (cs = s ++ ['"'] ∨ cs = s)) := by
  generalize text : c :: cs = w at h
  cases h with
  | sign listed =>
    have one : ∀ kind ∈ signs, kind ≠ .eq → kind ≠ .notEq → kind.name.toList.head?.bind signKind? = some kind ∧
        kind.name.toList.tail = [] := by decide
    by_cases equal : kind = .eq
    · subst equal
      obtain ⟨rfl, rfl⟩ := List.cons.inj text
      exact .inr (.inl ⟨rfl, .inl ⟨rfl, rfl⟩⟩)
    · by_cases unequal : kind = .notEq
      · subst unequal
        obtain ⟨rfl, rfl⟩ := List.cons.inj text
        exact .inr (.inl ⟨rfl, .inr ⟨rfl, rfl⟩⟩)
      · obtain ⟨single, alone⟩ := one kind listed equal unequal
        rw [← text] at single alone
        exact .inl ⟨single, alone⟩
  | word start parts =>
    obtain ⟨rfl, rfl⟩ := List.cons.inj text
    exact .inr (.inr (.inl ⟨start, parts, rfl⟩))
  | digits start parts =>
    obtain ⟨rfl, rfl⟩ := List.cons.inj text
    exact .inr (.inr (.inr (.inl ⟨start, parts, rfl⟩)))
  | @closed s plain =>
    obtain ⟨rfl, rfl⟩ := List.cons.inj text
    exact .inr (.inr (.inr (.inr ⟨rfl, rfl, s, plain, .inl rfl⟩)))
  | @unclosed s plain =>
    obtain ⟨rfl, rfl⟩ := List.cons.inj text
    exact .inr (.inr (.inr (.inr ⟨rfl, rfl, _, plain, .inr rfl⟩)))

theorem Matches.of_quote {kind : TokenKind} {cs : List Char} (h : Matches kind ('"' :: cs)) :
    kind = .str ∧ ∃ s, '"' ∉ s ∧ (cs = s ++ ['"'] ∨ cs = s) := by
  rcases h.of_cons with ⟨sign, _⟩ | ⟨_, ⟨quote, _⟩ | ⟨quote, _⟩⟩ | ⟨start, _⟩ | ⟨digit, _⟩ | ⟨_, closed⟩
  · cases sign
  · cases quote
  · cases quote
  · cases start
  · cases digit
  · exact closed

theorem Matches.of_wordStart {kind : TokenKind} {c : Char} {cs : List Char} (start : isWordStart c)
    (h : Matches kind (c :: cs)) : (∀ d ∈ cs, isWordPart d) ∧ kind = ofWord (String.ofList (c :: cs)) := by
  rcases h.of_cons with ⟨sign, _⟩ | ⟨_, ⟨rfl, _⟩ | ⟨rfl, _⟩⟩ | ⟨_, word⟩ | ⟨digit, _⟩ | ⟨rfl, _⟩
  · have outside := (Lexeme.facts_of_sign sign).2.1
    simp [isWordPart, start] at outside
  · cases start
  · cases start
  · exact word
  · rw [Lexeme.isWordStart_of_isDigit digit] at start
    cases start
  · cases start

theorem Matches.of_digit {kind : TokenKind} {c : Char} {cs : List Char} (digit : c.isDigit)
    (h : Matches kind (c :: cs)) : (∀ d ∈ cs, d.isDigit) ∧ kind = .int := by
  rcases h.of_cons with ⟨sign, _⟩ | ⟨_, ⟨rfl, _⟩ | ⟨rfl, _⟩⟩ | ⟨start, _⟩ | ⟨_, digits⟩ | ⟨rfl, _⟩
  · have outside := (Lexeme.facts_of_sign sign).2.1
    simp [isWordPart, digit] at outside
  · cases digit
  · cases digit
  · rw [Lexeme.isWordStart_of_isDigit digit] at start
    cases start
  · exact digits
  · cases digit

/-- A character that starts no string, word or number starts a sign or nothing. -/
theorem Matches.of_other {kind : TokenKind} {c : Char} {cs : List Char} (quote : c ≠ '"')
    (start : ¬ isWordStart c) (digit : ¬ c.isDigit) (h : Matches kind (c :: cs)) :
    (signKind? c = some kind ∧ cs = []) ∨ (cs = ['='] ∧ (c = '=' ∧ kind = .eq ∨ c = '!' ∧ kind = .notEq)) := by
  rcases h.of_cons with single | double | ⟨start', _⟩ | ⟨digit', _⟩ | ⟨quote', _⟩
  · exact .inl single
  · exact .inr double
  · exact absurd start' start
  · exact absurd digit' digit
  · exact absurd quote' quote

/-- For the longest match only texts with the same first character count. -/
theorem longest_of_cons {kind : TokenKind} {c : Char} {text rest : List Char} (accepted : Matches kind (c :: text))
    (others : ∀ kind' text', text' <+: text ++ rest → Matches kind' (c :: text') →
      text'.length < text.length ∨ text' = text ∧ kind' = kind) :
    Longest kind (c :: text) rest := by
  refine ⟨accepted, fun kind' text' initial accepted' => ?_⟩
  cases text' with
  | nil => exact .inl (Nat.succ_pos _)
  | cons c' text' =>
    rw [List.cons_append] at initial
    obtain ⟨rfl, front⟩ := List.cons_prefix_cons.1 initial
    rcases others kind' text' front accepted' with shorter | ⟨rfl, rfl⟩
    · exact .inl (Nat.succ_lt_succ shorter)
    · exact .inr ⟨rfl, rfl⟩

end TokenKind

/-- A text of characters with the property lies within the first run of such characters. -/
theorem prefix_takeWhile {p : Char → Bool} {s cs : List Char} (initial : s <+: cs) (all : ∀ c ∈ s, p c) :
    s <+: cs.takeWhile p := by
  obtain ⟨rest, rfl⟩ := initial
  rw [List.takeWhile_append_of_pos all]
  exact List.prefix_append _ _

theorem shorter_or_eq_of_prefix {s t : List Char} (h : s <+: t) : s.length < t.length ∨ s = t := by
  by_cases same : s.length = t.length
  · exact .inr (h.eq_of_length same)
  · exact .inl (Nat.lt_of_le_of_ne h.length_le same)

namespace Lexeme

open TokenKind

theorem longest_word {c : Char} {w rest : List Char} (start : isWordStart c) (parts : w.all isWordPart)
    (apart : Apart rest) : (ofWord (String.ofList (c :: w))).Longest (c :: w) rest := by
  refine longest_of_cons (.word start (List.all_eq_true.1 parts)) fun kind' text' initial accepted => ?_
  obtain ⟨parts', rfl⟩ := accepted.of_wordStart start
  have within := prefix_takeWhile initial parts'
  rw [(span_append parts apart).1] at within
  rcases shorter_or_eq_of_prefix within with shorter | rfl
  · exact .inl shorter
  · exact .inr ⟨rfl, rfl⟩

theorem longest_digits {c : Char} {w rest : List Char} (digit : c.isDigit) (parts : w.all Char.isDigit)
    (stops : ∀ d ∈ rest.head?, d.isDigit = false) : TokenKind.int.Longest (c :: w) rest := by
  refine longest_of_cons (.digits digit (List.all_eq_true.1 parts)) fun kind' text' initial accepted => ?_
  obtain ⟨parts', rfl⟩ := accepted.of_digit digit
  have within := prefix_takeWhile initial parts'
  rw [(span_append parts stops).1] at within
  rcases shorter_or_eq_of_prefix within with shorter | rfl
  · exact .inl shorter
  · exact .inr ⟨rfl, rfl⟩

theorem not_mem_takeWhile_quote (cs : List Char) : '"' ∉ cs.takeWhile (· != '"') := by
  intro mem
  have other := all_of_mem_takeWhile _ mem
  simp at other

theorem ne_quote_of_not_mem {s : List Char} (plain : '"' ∉ s) : ∀ c ∈ s, (c != '"') = true :=
  List.all_eq_true.1 (all_ne_quote plain)

/-- A quoted text is the characters up to the next quote, and that quote or the end. -/
theorem quoted_cases (cs : List Char) :
    ∃ s, '"' ∉ s ∧ ((∃ rest, cs = s ++ '"' :: rest ∧ quoted cs = ⟨.str, '"' :: (s ++ ['"']), rest⟩) ∨
      cs = s ∧ quoted cs = ⟨.str, '"' :: s, []⟩) := by
  have parts : cs.takeWhile (· != '"') ++ cs.dropWhile (· != '"') = cs := List.takeWhile_append_dropWhile
  refine ⟨cs.takeWhile (· != '"'), not_mem_takeWhile_quote cs, ?_⟩
  unfold quoted
  split
  · next eq =>
    rw [eq, List.append_nil] at parts
    exact .inr ⟨parts.symm, rfl⟩
  · next close rest eq =>
    have stops : close = '"' := by
      have found := List.head?_dropWhile_not (· != '"') cs
      simpa [eq] using found
    subst stops
    rw [eq] at parts
    exact .inl ⟨rest, parts.symm, rfl⟩

theorem longest_closed {s rest : List Char} (plain : '"' ∉ s) : Longest .str ('"' :: (s ++ ['"'])) rest := by
  refine longest_of_cons (.closed plain) fun kind' text' initial accepted => ?_
  obtain ⟨rfl, s', plain', written⟩ := accepted.of_quote
  rw [List.append_assoc, List.singleton_append] at initial
  have within : s' <+: s := by
    have stops : ∀ c ∈ ('"' :: rest).head?, (c != '"') = false := by simp
    have run := (span_append (all_ne_quote plain) stops).1
    have initial' : s' <+: s ++ '"' :: rest := by
      rcases written with rfl | rfl
      · exact (List.prefix_append _ _).trans initial
      · exact initial
    exact run ▸ prefix_takeWhile initial' (ne_quote_of_not_mem plain')
  rcases written with rfl | rfl
  · rcases shorter_or_eq_of_prefix within with shorter | rfl
    · exact .inl (by simpa using shorter)
    · exact .inr ⟨rfl, rfl⟩
  · have := within.length_le
    exact .inl (by simp only [List.length_append, List.length_singleton]; omega)

theorem longest_unclosed {s : List Char} (plain : '"' ∉ s) : Longest .str ('"' :: s) [] := by
  refine longest_of_cons (.unclosed plain) fun kind' text' initial accepted => ?_
  obtain ⟨rfl, s', _, written⟩ := accepted.of_quote
  rw [List.append_nil] at initial
  rcases shorter_or_eq_of_prefix initial with shorter | rfl
  · exact .inl shorter
  · exact .inr ⟨rfl, rfl⟩

theorem longest_sign {c : Char} {cs : List Char} {kind : TokenKind} (sign : signKind? c = some kind)
    (single : c = '=' ∨ c = '!' → cs.head? ≠ some '=') : kind.Longest [c] cs := by
  obtain ⟨quote, wordPart, _⟩ := facts_of_sign sign
  simp only [isWordPart, Bool.or_eq_false_iff] at wordPart
  obtain ⟨listed, name⟩ := sign_of_signKind? sign
  refine longest_of_cons (name ▸ .sign listed) fun kind' text' initial accepted => ?_
  rcases accepted.of_other quote (by simp [wordPart.1]) (by simp [wordPart.2]) with ⟨sign', rfl⟩ | ⟨rfl, double⟩
  · exact .inr ⟨rfl, Option.some.inj (sign'.symm.trans sign)⟩
  · obtain ⟨rest, rfl⟩ := initial
    exact absurd rfl (single (double.imp And.left And.left))

theorem longest_equal (cs : List Char) : Longest .eq ['=', '='] cs := by
  have listed : TokenKind.eq ∈ signs := by decide
  refine longest_of_cons (.sign listed) fun kind' text' _ accepted => ?_
  rcases accepted.of_other (by decide) (by decide) (by decide) with ⟨_, rfl⟩ | ⟨rfl, ⟨_, rfl⟩ | ⟨other, _⟩⟩
  · exact .inl (by simp)
  · exact .inr ⟨rfl, rfl⟩
  · cases other

theorem longest_unequal (cs : List Char) : Longest .notEq ['!', '='] cs := by
  have listed : TokenKind.notEq ∈ signs := by decide
  refine longest_of_cons (.sign listed) fun kind' text' _ accepted => ?_
  rcases accepted.of_other (by decide) (by decide) (by decide) with ⟨_, rfl⟩ | ⟨rfl, ⟨other, _⟩ | ⟨_, rfl⟩⟩
  · exact .inl (by simp)
  · cases other
  · exact .inr ⟨rfl, rfl⟩

theorem literal_of_ne_str {x : Lexeme} (other : x.kind ≠ .str) : x.literal = x.text := by
  unfold literal
  split
  · next str => exact absurd str other
  · rfl

theorem literal_closed {s : List Char} (plain : '"' ∉ s) (rest : List Char) :
    literal ⟨.str, '"' :: (s ++ ['"']), rest⟩ = s := by
  have stops : ∀ c ∈ ['"'].head?, (c != '"') = false := by simp
  exact (span_append (all_ne_quote plain) stops).1

theorem literal_unclosed {s : List Char} (plain : '"' ∉ s) (rest : List Char) :
    literal ⟨.str, '"' :: s, rest⟩ = s := by
  have ends : ∀ c ∈ ([] : List Char).head?, (c != '"') = false := by simp
  have run := (span_append (all_ne_quote plain) ends).1
  rwa [List.append_nil] at run

theorem startsNone_of_signKind?_eq_none {c : Char} (visible : isBlank c = false) (quote : c ≠ '"')
    (start : ¬ isWordStart c) (digit : ¬ c.isDigit) (unsigned : signKind? c = none) : StartsNone c := by
  refine ⟨visible, fun kind cs accepted => ?_⟩
  rcases accepted.of_other quote start digit with ⟨sign, _⟩ | ⟨_, ⟨rfl, _⟩ | ⟨rfl, _⟩⟩
  · rw [unsigned] at sign
    cases sign
  · cases unsigned
  · cases unsigned

/-- The ways to scan a token from a character and the text after it. -/
inductive Scanned : Char → List Char → Lexeme → Prop
  | closed {s rest : List Char} : '"' ∉ s → Scanned '"' (s ++ '"' :: rest) ⟨.str, '"' :: (s ++ ['"']), rest⟩
  | unclosed {s : List Char} : '"' ∉ s → Scanned '"' s ⟨.str, '"' :: s, []⟩
  | word {c : Char} {w rest : List Char} : isWordStart c → w.all isWordPart → Apart rest →
      Scanned c (w ++ rest) ⟨ofWord (String.ofList (c :: w)), c :: w, rest⟩
  | digits {c : Char} {w rest : List Char} : c.isDigit → w.all Char.isDigit →
      (∀ d ∈ rest.head?, d.isDigit = false) → Scanned c (w ++ rest) ⟨.int, c :: w, rest⟩
  | equal {rest : List Char} : Scanned '=' ('=' :: rest) ⟨.eq, ['=', '='], rest⟩
  | unequal {rest : List Char} : Scanned '!' ('=' :: rest) ⟨.notEq, ['!', '='], rest⟩
  | sign {c : Char} {rest : List Char} {kind : TokenKind} : signKind? c = some kind →
      (c = '=' ∨ c = '!' → rest.head? ≠ some '=') → Scanned c rest ⟨kind, [c], rest⟩
  | illegal {c : Char} {rest : List Char} : c ≠ '"' → ¬ isWordStart c → ¬ c.isDigit → signKind? c = none →
      Scanned c rest ⟨.illegal, [c], rest⟩

/-- A run of characters with the property ends where another character stands. -/
theorem stops_dropWhile (p : Char → Bool) (cs : List Char) : ∀ c ∈ (cs.dropWhile p).head?, p c = false := by
  intro c next
  have first := List.head?_dropWhile_not p cs
  rw [Option.mem_def.1 next] at first
  exact first

theorem scanned_scan (c : Char) (cs : List Char) : Scanned c cs (scan c cs) := by
  by_cases quote : c = '"'
  · subst quote
    have scanned : scan '"' cs = quoted cs := rfl
    obtain ⟨s, plain, ⟨rest, rfl, same⟩ | ⟨rfl, same⟩⟩ := quoted_cases cs
    · rw [scanned, same]
      exact .closed plain
    · rw [scanned, same]
      exact .unclosed plain
  by_cases start : isWordStart c
  · have scanned := Scanned.word start (List.all_takeWhile (p := isWordPart) (l := cs)) (stops_dropWhile isWordPart cs)
    rw [List.takeWhile_append_dropWhile] at scanned
    unfold scan
    rw [if_neg (by simpa using quote), if_pos start]
    exact scanned
  by_cases digit : c.isDigit
  · have scanned := Scanned.digits digit (List.all_takeWhile (p := Char.isDigit) (l := cs))
      (stops_dropWhile Char.isDigit cs)
    rw [List.takeWhile_append_dropWhile] at scanned
    unfold scan
    rw [if_neg (by simpa using quote), if_neg start, if_pos digit]
    exact scanned
  by_cases double : (c = '=' ∨ c = '!') ∧ cs.head? = some '='
  · obtain ⟨sign, next⟩ := double
    obtain ⟨rest, rfl⟩ := List.head?_eq_some_iff.1 next
    rcases sign with rfl | rfl
    · exact .equal
    · exact .unequal
  · have single : c = '=' ∨ c = '!' → cs.head? ≠ some '=' := fun sign next => double ⟨sign, next⟩
    cases sign : signKind? c with
    | some kind =>
      rw [scan_sign sign single]
      exact .sign sign single
    | none =>
      unfold scan
      rw [if_neg (by simpa using quote), if_neg start, if_neg digit]
      split
      · cases sign
      · cases sign
      · rw [sign, Option.getD_none]
        exact .illegal quote start digit sign

/-- A token whose literal is its text. -/
theorem fits_of_ne_str {x : Lexeme} (notEof : x.kind ≠ .eof) (other : x.kind ≠ .str) (nonempty : x.text ≠ [])
    (longest : x.kind.Longest x.text x.rest ∨ x.kind = .illegal ∧ ∃ c, x.text = [c] ∧ StartsNone c) (span : Span) :
    Token.Fits ⟨x.kind, String.ofList x.literal, span⟩ x.text x.rest where
  nonempty := nonempty
  kind_ne_eof := notEof
  literal := by rw [if_neg other, literal_of_ne_str other, String.toList_ofList]
  longest := longest

theorem Scanned.fits {c : Char} {cs : List Char} {x : Lexeme} (h : Scanned c cs x) (visible : isBlank c = false)
    (span : Span) : Token.Fits ⟨x.kind, String.ofList x.literal, span⟩ x.text x.rest := by
  cases h with
  | closed plain =>
    rw [literal_closed plain]
    exact ⟨by simp, by simp, by simp [plain], .inl (longest_closed plain)⟩
  | unclosed plain =>
    rw [literal_unclosed plain]
    exact ⟨by simp, by simp, by simp [plain], .inl (longest_unclosed plain)⟩
  | word start parts apart =>
    exact fits_of_ne_str (ofWord_ne _ (by decide) (by decide)) (ofWord_ne _ (by decide) (by decide)) (by simp)
      (.inl (longest_word start parts apart)) span
  | digits digit parts stops =>
    exact fits_of_ne_str (by simp) (by simp) (by simp) (.inl (longest_digits digit parts stops)) span
  | equal => exact fits_of_ne_str (by simp) (by simp) (by simp) (.inl (longest_equal _)) span
  | unequal => exact fits_of_ne_str (by simp) (by simp) (by simp) (.inl (longest_unequal _)) span
  | @sign _ _ kind sign single =>
    obtain ⟨_, _, _, notStr⟩ := facts_of_sign sign
    obtain ⟨listed, _⟩ := sign_of_signKind? sign
    have notEof : kind ≠ .eof := by
      rintro rfl
      revert listed
      decide
    exact fits_of_ne_str notEof notStr (by simp) (.inl (longest_sign sign single)) span
  | illegal quote start digit unsigned =>
    have none := startsNone_of_signKind?_eq_none visible quote start digit unsigned
    exact fits_of_ne_str (by simp) (by simp) (by simp) (.inr ⟨rfl, _, rfl, none⟩) span

/-- What stands at a visible character is scanned as the longest token there, or the character is illegal. -/
theorem fits_scan {c : Char} {cs : List Char} (visible : isBlank c = false) (span : Span) :
    Token.Fits ⟨(scan c cs).kind, String.ofList (scan c cs).literal, span⟩ (scan c cs).text (scan c cs).rest :=
  (scanned_scan c cs).fits visible span

end Lexeme

end Monkey
