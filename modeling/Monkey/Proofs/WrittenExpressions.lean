import Monkey.Proofs.Lookahead
import Monkey.Proofs.Scanning
import Monkey.Syntax.Render
import Monkey.Syntax.WellFormed

namespace Monkey

open Grammar

/-- The text is scanned into tokens that stand for the node. -/
def Spells (symbol : Symbol) (text : List Char) (a : symbol.Node) : Prop :=
  ∀ (l : Lexer) (cs : List Char), l.rest = text ++ cs → Apart cs →
    ∃ l' : Lexer, l'.rest = cs ∧ Reads symbol a l.tokens l'.tokens

/-- The same of a text that ends in a sign: whatever comes after it is a token of its own. -/
def SpellsClosed (symbol : Symbol) (text : List Char) (a : symbol.Node) : Prop :=
  ∀ (l : Lexer) (cs : List Char), l.rest = text ++ cs →
    ∃ l' : Lexer, l'.rest = cs ∧ Reads symbol a l.tokens l'.tokens

/-- The text is scanned into tokens that stand for the expression in one pair of parentheses. -/
def Encloses (text : List Char) (e : Expr) : Prop :=
  ∀ (l : Lexer) (cs : List Char), l.rest = text ++ cs →
    ∃ (opening closing : Token) (ts : List Token) (l' : Lexer), opening.kind = .lparen ∧ closing.kind = .rparen ∧
      l'.rest = cs ∧ l.tokens = opening :: ts ∧ Reads (.expression .lowest) e ts (closing :: l'.tokens)

theorem Encloses.spells {text : List Char} {e : Expr} (h : Encloses text e) : Spells (.expression .call) text e := by
  intro l cs rest _
  obtain ⟨opening, closing, ts, l', lparen, rparen, rest', tokens, reads⟩ := h l cs rest
  refine ⟨l', rest', .primary ?_⟩
  rw [tokens]
  exact .grouped lparen reads rparen

theorem Spells.lowest {text : List Char} {e : Expr} (h : Spells (.expression .call) text e) :
    Spells (.expression .lowest) text e := by
  intro l cs rest apart
  obtain ⟨l', rest', reads⟩ := h l cs rest apart
  exact ⟨l', rest', reads.loosen (Nat.zero_le _)⟩

/-- No expression starts with the sign that would make one token with a sign before it. -/
theorem Spells.head_ne {q : Precedence} {text cs : List Char} {e : Expr} (h : Spells (.expression q) text e)
    (apart : Apart cs) : (text ++ cs).head? ≠ some '=' := by
  intro head
  obtain ⟨cs', whole⟩ := List.head?_eq_some_iff.1 head
  let l : Lexer := { rest := text ++ cs }
  obtain ⟨l', _, reads⟩ := h l cs rfl apart
  obtain ⟨t, us, tokens, begins⟩ := reads.begins
  obtain ⟨t', us', tokens', kind⟩ := Lexer.exists_tokens_of_assign (l := l) whole
  cases tokens.symm.trans tokens'
  rcases kind with assign | eq
  · exact ne_of_beginsExpression begins rfl assign
  · exact ne_of_beginsExpression begins rfl eq

section Expressions

variable {e l r : Expr} {span : Span}

theorem isIdentifier_iff {name : String} : isIdentifier name ↔ ∃ c cs, name.toList = c :: cs ∧ isWordStart c ∧
    cs.all isWordPart ∧ TokenKind.ofWord name = .ident := by
  unfold isIdentifier
  split
  · next eq => simp [eq]
  · next c cs eq => simp [eq, and_assoc]

theorem scans_name {l : Lexer} {name : String} {cs : List Char} (h : l.rest = name.toList ++ cs)
    (identifier : isIdentifier name) (apart : Apart cs) : l.Scans .ident name.toList cs := by
  obtain ⟨c, w, text, start, parts, kind⟩ := isIdentifier_iff.1 identifier
  rw [text] at h ⊢
  refine Lexer.scans_word h start parts apart ?_ (by decide)
  rw [← text, String.ofList_toList, kind]

theorem spells_name {id : Identifier} (identifier : isIdentifier id.name) :
    Spells (.expression .call) id.name.toList (.name id) := by
  intro l cs rest apart
  obtain ⟨t, l', kind, literal, rest', tokens⟩ := scans_name rest identifier apart
  refine ⟨l', rest', .primary ?_⟩
  have named : id = ⟨t.literal, id.span⟩ := by rw [literal, String.ofList_toList]
  rw [tokens, named]
  exact .name id.span kind

theorem spells_int {n : Int64} (natural : 0 ≤ n.toInt) :
    Spells (.expression .call) (toString n.toInt).toList (.int n span) := by
  obtain ⟨m, value⟩ := Int.eq_ofNat_of_zero_le natural
  have text : (toString n.toInt).toList = Nat.toDigits 10 m := by
    rw [value]
    exact Nat.toList_repr
  rw [text]
  intro l cs rest apart
  have digits : (Nat.toDigits 10 m).all Char.isDigit := by
    rw [List.all_eq_true]
    exact fun c mem => Nat.isDigit_of_mem_toDigits (by decide) (by decide) mem
  obtain ⟨t, l', kind, literal, rest', tokens⟩ := Lexer.scans_digits rest Nat.toDigits_ne_nil digits apart
  refine ⟨l', rest', .primary ?_⟩
  rw [tokens]
  refine .int span kind ?_
  have back : digitsValue (Nat.toDigits 10 m) = m := Nat.ofDigitChars_ten_toDigits
  rw [digitsValue_eq_numeral] at back
  rw [literal, String.toList_ofList, back, value]

theorem spells_str {s : String} (plain : '"' ∉ s.toList) :
    Spells (.expression .call) ('"' :: (s.toList ++ ['"'])) (.str s span) := by
  intro l cs rest _
  rw [List.cons_append, List.append_assoc] at rest
  obtain ⟨t, l', kind, literal, rest', tokens⟩ := Lexer.scans_quoted rest plain
  refine ⟨l', rest', .primary ?_⟩
  rw [String.ofList_toList] at literal
  rw [tokens, ← literal]
  exact .str span kind

theorem spells_true : Spells (.expression .call) "true".toList (.bool true span) := by
  intro l cs rest apart
  obtain ⟨t, l', trueWord, _, rest', tokens⟩ := Lexer.scans_keyword .trueWord (by decide) rest apart
  refine ⟨l', rest', .primary ?_⟩
  rw [tokens]
  exact .trueWord span trueWord

theorem spells_false : Spells (.expression .call) "false".toList (.bool false span) := by
  intro l cs rest apart
  obtain ⟨t, l', falseWord, _, rest', tokens⟩ := Lexer.scans_keyword .falseWord (by decide) rest apart
  refine ⟨l', rest', .primary ?_⟩
  rw [tokens]
  exact .falseWord span falseWord

/-- The sign of an operator before its operand. -/
theorem reads_unary {op : UnaryOp} {l : Lexer} {cs : List Char} (h : l.rest = op.symbol.toList ++ cs)
    (single : cs.head? ≠ some '=') : ∃ l' : Lexer, l'.rest = cs ∧ ∀ e span ts,
      Reads (.expression .unary) e l'.tokens ts → Reads (.expression .unary) (.unary op e span) l.tokens ts := by
  cases op with
  | not =>
    obtain ⟨t, l', bang, _, rest', tokens⟩ := Lexer.scans_sign h rfl fun _ => single
    rw [tokens]
    exact ⟨l', rest', fun _ span _ operand => .not span bang operand⟩
  | neg =>
    obtain ⟨t, l', minus, _, rest', tokens⟩ := Lexer.scans_sign (c := '-') h rfl (by simp)
    rw [tokens]
    exact ⟨l', rest', fun _ span _ operand => .neg span minus operand⟩

theorem encloses_unary {op : UnaryOp} (operand : Spells (.expression .call) e.render.toList e) :
    Encloses (Expr.unary op e span).render.toList (.unary op e span) := by
  intro l cs rest
  have closing : Apart (')' :: cs) := apart_sign cs rfl
  have text : l.rest = '(' :: (op.symbol.toList ++ (e.render.toList ++ ')' :: cs)) := by
    rw [rest]
    simp [Expr.render]
  obtain ⟨t, l₁, lparen, _, rest₁, tokens⟩ := Lexer.scans_sign text rfl (by simp)
  obtain ⟨l₂, rest₂, reads₂⟩ := reads_unary rest₁ (operand.head_ne closing)
  obtain ⟨l₃, rest₃, reads₃⟩ := operand l₂ _ rest₂ closing
  obtain ⟨t₃, l₄, rparen, _, rest₄, tokens₃⟩ := Lexer.scans_sign rest₃ rfl (by simp)
  refine ⟨t, t₃, l₁.tokens, l₄, lparen, rparen, rest₄, tokens, ?_⟩
  rw [← tokens₃]
  exact (reads₂ _ _ _ (reads₃.loosen (by decide))).loosen (Nat.zero_le _)

theorem encloses_binary {op : BinaryOp} (left : Spells (.expression .call) l.render.toList l)
    (right : Spells (.expression .call) r.render.toList r) :
    Encloses (Expr.binary op l r span).render.toList (.binary op l r span) := by
  intro lexer cs rest
  have text : lexer.rest =
      '(' :: (l.render.toList ++ ' ' :: (op.symbol.toList ++ ' ' :: (r.render.toList ++ ')' :: cs))) := by
    rw [rest]
    simp [Expr.render]
  obtain ⟨t, l₁, lparen, _, rest₁, tokens⟩ := Lexer.scans_sign text rfl (by simp)
  obtain ⟨l₂, rest₂, readsLeft⟩ := left l₁ _ rest₁ (apart_blank _)
  obtain ⟨l₃, rest₃, blank₃⟩ := Lexer.exists_tokens_of_blank rest₂
  obtain ⟨kind, carries, t₃, l₄, rfl, _, rest₄, tokens₃⟩ := Lexer.scans_operator rest₃
  obtain ⟨l₅, rest₅, blank₅⟩ := Lexer.exists_tokens_of_blank rest₄
  obtain ⟨l₆, rest₆, readsRight⟩ := right l₅ _ rest₅ (apart_sign _ rfl)
  obtain ⟨t₆, l₇, rparen, _, rest₇, tokens₆⟩ := Lexer.scans_sign rest₆ rfl (by simp)
  refine ⟨t, t₆, l₁.tokens, l₇, lparen, rparen, rest₇, tokens, ?_⟩
  rw [blank₃, tokens₃, blank₅] at readsLeft
  rw [tokens₆] at readsRight
  have whole := (readsLeft.loosen (Nat.le_of_lt op.lt_call)).operation span carries op.lt_call readsRight
  exact whole.loosen (Nat.zero_le _)

theorem encloses_index (base : Spells (.expression .call) l.render.toList l)
    (index : Spells (.expression .call) r.render.toList r) :
    Encloses (Expr.index l r span).render.toList (.index l r span) := by
  intro lexer cs rest
  have text : lexer.rest = '(' :: (l.render.toList ++ '[' :: (r.render.toList ++ ']' :: ')' :: cs)) := by
    rw [rest]
    simp [Expr.render]
  obtain ⟨t, l₁, lparen, _, rest₁, tokens⟩ := Lexer.scans_sign text rfl (by simp)
  obtain ⟨l₂, rest₂, readsBase⟩ := base l₁ _ rest₁ (apart_sign _ rfl)
  obtain ⟨t₂, l₃, lbracket, _, rest₃, tokens₂⟩ := Lexer.scans_sign rest₂ rfl (by simp)
  obtain ⟨l₄, rest₄, readsIndex⟩ := index l₃ _ rest₃ (apart_sign _ rfl)
  obtain ⟨t₄, l₅, rbracket, _, rest₅, tokens₄⟩ := Lexer.scans_sign rest₄ rfl (by simp)
  obtain ⟨t₅, l₆, rparen, _, rest₆, tokens₅⟩ := Lexer.scans_sign rest₅ rfl (by simp)
  refine ⟨t, t₅, l₁.tokens, l₆, lparen, rparen, rest₆, tokens, ?_⟩
  rw [tokens₂] at readsBase
  rw [tokens₄] at readsIndex
  rw [← tokens₅]
  exact (Reads.index span readsBase lbracket (readsIndex.loosen (Nat.zero_le _)) rbracket).loosen (Nat.zero_le _)

/-- Of a condition's own parentheses, or those it gets. -/
theorem encloses_condition (condition : Spells (.expression .call) e.render.toList e)
    (own : e.isParenthesized → Encloses e.render.toList e) :
    Encloses (if e.isParenthesized then e.render else "(" ++ e.render ++ ")").toList e := by
  split
  · next parenthesized => exact own parenthesized
  · intro l cs rest
    have text : l.rest = '(' :: (e.render.toList ++ ')' :: cs) := by
      rw [rest]
      simp
    obtain ⟨t, l₁, lparen, _, rest₁, tokens⟩ := Lexer.scans_sign text rfl (by simp)
    obtain ⟨l₂, rest₂, reads⟩ := condition l₁ _ rest₁ (apart_sign _ rfl)
    obtain ⟨t₂, l₃, rparen, _, rest₃, tokens₂⟩ := Lexer.scans_sign rest₂ rfl (by simp)
    rw [tokens₂] at reads
    exact ⟨t, t₂, l₁.tokens, l₃, lparen, rparen, rest₃, tokens, reads.loosen (Nat.zero_le _)⟩

end Expressions

section Lists

theorem spells_items {item : Symbol} {text : item.Node → String} {as : List item.Node} (some : as ≠ [])
    (each : ∀ a ∈ as, Spells item (text a).toList a) :
    Spells (.items item) (", ".intercalate (as.map text)).toList as := by
  induction as with
  | nil => exact absurd rfl some
  | cons a as ih =>
    cases as with
    | nil =>
      intro l cs rest apart
      obtain ⟨l', rest', reads⟩ := each a (.head _) l cs (by simpa using rest) apart
      exact ⟨l', rest', .one reads⟩
    | cons b bs =>
      intro l cs rest apart
      have others := ih (by simp) fun a mem => each a (.tail _ mem)
      have whole : l.rest =
          (text a).toList ++ ',' :: ' ' :: ((", ".intercalate ((b :: bs).map text)).toList ++ cs) := by
        rw [rest]
        simp
      obtain ⟨l₁, rest₁, reads⟩ := each a (.head _) l _ whole (apart_sign _ rfl)
      obtain ⟨t, l₂, comma, _, rest₂, tokens⟩ := Lexer.scans_sign rest₁ rfl (by simp)
      obtain ⟨l₃, rest₃, blank⟩ := Lexer.exists_tokens_of_blank rest₂
      obtain ⟨l₄, rest₄, readsOthers⟩ := others l₃ cs rest₃ apart
      rw [tokens, blank] at reads
      exact ⟨l₄, rest₄, .more reads comma readsOthers⟩

/-- Items up to the sign that closes the list. -/
theorem spells_list (item : Symbol) (text : item.Node → String) {as : List item.Node} {c : Char}
    {closing : TokenKind} (sign : signKind? c = some closing) (single : c ≠ '=' ∧ c ≠ '!')
    (each : ∀ a ∈ as, Spells item (text a).toList a) :
    Spells (.list item closing) ((", ".intercalate (as.map text)).toList ++ [c]) as := by
  intro l cs rest _
  have alone : c = '=' ∨ c = '!' → cs.head? ≠ some '=' := by
    rintro (eq | bang)
    · exact absurd eq single.1
    · exact absurd bang single.2
  rw [List.append_assoc] at rest
  by_cases empty : as = []
  · subst empty
    obtain ⟨t, l', kind, _, rest', tokens⟩ := Lexer.scans_sign rest sign alone
    refine ⟨l', rest', ?_⟩
    rw [tokens]
    exact .emptyList kind
  · have apart : Apart (c :: cs) := apart_sign cs sign
    obtain ⟨l₁, rest₁, reads⟩ := spells_items empty each l _ rest apart
    obtain ⟨t, l', kind, _, rest', tokens⟩ := Lexer.scans_sign rest₁ sign alone
    rw [tokens] at reads
    exact ⟨l', rest', .list reads kind⟩

end Lists

theorem renderList_eq_intercalate (es : List Expr) : renderList es = ", ".intercalate (es.map Expr.render) := by
  have more (e : Expr) (es : List Expr) :
      e.render ++ renderListRest es = ", ".intercalate (e.render :: es.map Expr.render) := by
    induction es generalizing e with
    | nil => simp [renderListRest]
    | cons e' es ih =>
      rw [renderListRest, List.map_cons, String.intercalate_cons_cons, ← ih, String.append_assoc, String.append_assoc]
  cases es with
  | nil => simp [renderList]
  | cons e es => exact more e es

def renderPair (p : Expr × Expr) : String := p.1.render ++ ": " ++ p.2.render

theorem renderPairs_eq_intercalate (ps : List (Expr × Expr)) :
    renderPairs ps = ", ".intercalate (ps.map renderPair) := by
  have more (p : Expr × Expr) (ps : List (Expr × Expr)) :
      renderPair p ++ renderPairsRest ps = ", ".intercalate (renderPair p :: ps.map renderPair) := by
    induction ps generalizing p with
    | nil => simp [renderPairsRest]
    | cons p' ps ih =>
      rw [List.map_cons, String.intercalate_cons_cons, ← ih]
      simp only [renderPairsRest, renderPair, String.append_assoc]
  cases ps with
  | nil => simp [renderPairs]
  | cons p ps => exact more p ps

section Nodes

variable {e : Expr} {b : Block} {span : Span}

theorem spells_call {as : List Expr} (callee : Spells (.expression .call) e.render.toList e)
    (arguments : ∀ a ∈ as, Spells (.expression .lowest) a.render.toList a) :
    Spells (.expression .call) (Expr.call e as span).render.toList (.call e as span) := by
  intro l cs rest apart
  have text : l.rest =
      e.render.toList ++ '(' :: ((", ".intercalate (as.map Expr.render)).toList ++ [')'] ++ cs) := by
    rw [rest]
    simp [Expr.render, renderList_eq_intercalate]
  obtain ⟨l₁, rest₁, readsCallee⟩ := callee l _ text (apart_sign _ rfl)
  obtain ⟨t, l₂, lparen, _, rest₂, tokens⟩ := Lexer.scans_sign rest₁ rfl (by simp)
  have list := spells_list (.expression .lowest) Expr.render (c := ')') rfl (by decide) arguments
  obtain ⟨l₃, rest₃, readsArguments⟩ := list l₂ cs rest₂ apart
  rw [tokens] at readsCallee
  exact ⟨l₃, rest₃, .call span readsCallee lparen readsArguments⟩

theorem spells_array {es : List Expr} (elements : ∀ a ∈ es, Spells (.expression .lowest) a.render.toList a) :
    Spells (.expression .call) (Expr.array es span).render.toList (.array es span) := by
  intro l cs rest apart
  have text : l.rest = '[' :: ((", ".intercalate (es.map Expr.render)).toList ++ [']'] ++ cs) := by
    rw [rest]
    simp [Expr.render, renderList_eq_intercalate]
  obtain ⟨t, l₁, lbracket, _, rest₁, tokens⟩ := Lexer.scans_sign text rfl (by simp)
  have list := spells_list (.expression .lowest) Expr.render (c := ']') rfl (by decide) elements
  obtain ⟨l₂, rest₂, reads⟩ := list l₁ cs rest₁ apart
  refine ⟨l₂, rest₂, .primary ?_⟩
  rw [tokens]
  exact .array span lbracket reads

theorem spells_pair {p : Expr × Expr} (key : Spells (.expression .lowest) p.1.render.toList p.1)
    (value : Spells (.expression .lowest) p.2.render.toList p.2) : Spells .pair (renderPair p).toList p := by
  intro l cs rest apart
  have text : l.rest = p.1.render.toList ++ ':' :: ' ' :: (p.2.render.toList ++ cs) := by
    rw [rest]
    simp [renderPair]
  obtain ⟨l₁, rest₁, readsKey⟩ := key l _ text (apart_sign _ rfl)
  obtain ⟨t, l₂, colon, _, rest₂, tokens⟩ := Lexer.scans_sign rest₁ rfl (by simp)
  obtain ⟨l₃, rest₃, blank⟩ := Lexer.exists_tokens_of_blank rest₂
  obtain ⟨l₄, rest₄, readsValue⟩ := value l₃ cs rest₃ apart
  rw [tokens, blank] at readsKey
  exact ⟨l₄, rest₄, .pair readsKey colon readsValue⟩

theorem spells_hash {ps : List (Expr × Expr)} (pairs : ∀ p ∈ ps, Spells .pair (renderPair p).toList p) :
    Spells (.expression .call) (Expr.hash ps span).render.toList (.hash ps span) := by
  intro l cs rest apart
  have text : l.rest = '\x7b' :: ((", ".intercalate (ps.map renderPair)).toList ++ ['\x7d'] ++ cs) := by
    rw [rest]
    simp [Expr.render, renderPairs_eq_intercalate]
  obtain ⟨t, l₁, lbrace, _, rest₁, tokens⟩ := Lexer.scans_sign text rfl (by simp)
  have list := spells_list .pair renderPair (c := '\x7d') rfl (by decide) pairs
  obtain ⟨l₂, rest₂, reads⟩ := list l₁ cs rest₁ apart
  refine ⟨l₂, rest₂, .primary ?_⟩
  rw [tokens]
  exact .hash span lbrace reads

theorem spells_parameter {id : Identifier} (identifier : isIdentifier id.name) :
    Spells .parameter id.name.toList id := by
  intro l cs rest apart
  obtain ⟨t, l', kind, literal, rest', tokens⟩ := scans_name rest identifier apart
  refine ⟨l', rest', ?_⟩
  have named : id = ⟨t.literal, id.span⟩ := by rw [literal, String.ofList_toList]
  rw [tokens, named]
  exact .parameter id.span kind

theorem spells_function {ps : List Identifier} {place : Place} (parameters : ∀ id ∈ ps, isIdentifier id.name)
    (body : SpellsClosed .block b.render.toList b) :
    Spells (.expression .call) (Expr.function ps b place).render.toList (.function ps b place) := by
  intro l cs rest _
  have text : l.rest = "fn".toList ++ '(' :: ((", ".intercalate (ps.map (·.name))).toList ++ [')'] ++
      ' ' :: (b.render.toList ++ cs)) := by
    rw [rest]
    simp [Expr.render, renderNames]
  obtain ⟨t, l₁, fnWord, _, rest₁, tokens⟩ := Lexer.scans_keyword .fnWord (by decide) text (apart_sign _ rfl)
  obtain ⟨t₁, l₂, lparen, _, rest₂, tokens₁⟩ := Lexer.scans_sign rest₁ rfl (by simp)
  have list := spells_list .parameter (·.name) (c := ')') rfl (by decide)
    fun id mem => spells_parameter (parameters id mem)
  obtain ⟨l₃, rest₃, readsParameters⟩ := list l₂ _ rest₂ (apart_blank _)
  obtain ⟨l₄, rest₄, blank⟩ := Lexer.exists_tokens_of_blank rest₃
  obtain ⟨l₅, rest₅, readsBody⟩ := body l₄ cs rest₄
  refine ⟨l₅, rest₅, .primary ?_⟩
  rw [tokens, tokens₁]
  rw [blank] at readsParameters
  exact .function place fnWord lparen readsParameters readsBody

theorem spells_alternative {otherwise : Option Block}
    (each : ∀ b ∈ otherwise, SpellsClosed .block b.render.toList b) :
    SpellsClosed .alternative (renderAlternative otherwise).toList otherwise := by
  intro l cs rest
  cases otherwise with
  | none => exact ⟨l, by simpa [renderAlternative] using rest, .noAlternative⟩
  | some b =>
    have text : l.rest = "else".toList ++ ' ' :: (b.render.toList ++ cs) := by
      rw [rest]
      simp [renderAlternative]
    obtain ⟨t, l₁, elseWord, _, rest₁, tokens⟩ := Lexer.scans_keyword .elseWord (by decide) text (apart_blank _)
    obtain ⟨l₂, rest₂, blank⟩ := Lexer.exists_tokens_of_blank rest₁
    obtain ⟨l₃, rest₃, reads⟩ := each b rfl l₂ cs rest₂
    refine ⟨l₃, rest₃, ?_⟩
    rw [tokens, blank]
    exact .alternative elseWord reads

theorem spells_cond {otherwise : Option Block}
    (condition : Encloses (if e.isParenthesized then e.render else "(" ++ e.render ++ ")").toList e)
    (consequence : SpellsClosed .block b.render.toList b)
    (alternative : SpellsClosed .alternative (renderAlternative otherwise).toList otherwise) :
    Spells (.expression .call) (Expr.cond e b otherwise span).render.toList (.cond e b otherwise span) := by
  intro l cs rest _
  have text : l.rest = "if".toList ++ ' ' :: ((if e.isParenthesized then e.render else "(" ++ e.render ++ ")").toList ++
      ' ' :: (b.render.toList ++ ((renderAlternative otherwise).toList ++ cs))) := by
    rw [rest]
    simp [Expr.render]
  obtain ⟨t, l₁, ifWord, _, rest₁, tokens⟩ := Lexer.scans_keyword .ifWord (by decide) text (apart_blank _)
  obtain ⟨l₂, rest₂, blank₂⟩ := Lexer.exists_tokens_of_blank rest₁
  obtain ⟨opening, closing, ts, l₃, lparen, rparen, rest₃, tokens₂, readsCondition⟩ := condition l₂ _ rest₂
  obtain ⟨l₄, rest₄, blank₄⟩ := Lexer.exists_tokens_of_blank rest₃
  obtain ⟨l₅, rest₅, readsBlock⟩ := consequence l₄ _ rest₄
  obtain ⟨l₆, rest₆, readsAlternative⟩ := alternative l₅ cs rest₅
  refine ⟨l₆, rest₆, .primary ?_⟩
  rw [blank₄] at readsCondition
  rw [tokens, blank₂, tokens₂]
  exact .cond span ifWord lparen readsCondition rparen readsBlock readsAlternative

end Nodes

end Monkey
