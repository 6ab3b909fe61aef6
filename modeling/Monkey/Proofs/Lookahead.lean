import Monkey.Grammar

namespace Monkey

theorem BinaryOp.lt_unary (op : BinaryOp) : op.precedence < .unary := by
  cases op <;> decide

theorem BinaryOp.lt_call (op : BinaryOp) : op.precedence < .call := by
  cases op <;> decide

namespace Grammar

theorem Next.rank_eq {p q : Precedence} (h : Next p q) : q.rank = p.rank + 1 := by
  cases h <;> rfl

theorem Next.lt {p q : Precedence} (h : Next p q) : p < q := Nat.lt_of_lt_of_eq (Nat.lt_succ_self _) h.rank_eq.symm

/-- Every level but the tightest has a next one. -/
theorem exists_next {p q : Precedence} (lt : p < q) : ∃ r, Next p r := by
  cases p with
  | lowest => exact ⟨_, .lowest⟩
  | equality => exact ⟨_, .equality⟩
  | comparison => exact ⟨_, .comparison⟩
  | sum => exact ⟨_, .sum⟩
  | product => exact ⟨_, .product⟩
  | unary => exact ⟨_, .unary⟩
  | call => cases q <;> exact absurd lt (by decide)

theorem Precedence.eq_of_rank_eq {p q : Precedence} (same : p.rank = q.rank) : p = q := by
  revert same
  cases p <;> cases q <;> decide

/-- An expression of a level is one of every level that is less tight. -/
theorem Reads.loosen {p q : Precedence} {e : Expr} {ts rest : List Token} (le : p.rank ≤ q.rank)
    (reads : Reads (.expression q) e ts rest) : Reads (.expression p) e ts rest := by
  obtain ⟨gap, sum⟩ := Nat.exists_eq_add_of_le le
  clear le
  induction gap generalizing p with
  | zero => exact Precedence.eq_of_rank_eq sum ▸ reads
  | succ gap ih =>
    obtain ⟨r, next⟩ := exists_next (show p.rank < q.rank by omega)
    have further : q.rank = r.rank + gap := by rw [next.rank_eq, sum, Nat.add_assoc, Nat.add_comm 1]
    exact .tighter next (ih further)

/-- The parser's tables have the signs of the grammar, and no others. -/
theorem sign_iff {kind : TokenKind} {op : BinaryOp} {p : Precedence} :
    Sign kind op p ↔ Continuation.ofKind? kind = some (.binary op) ∧ op.precedence = p := by
  constructor
  · intro h
    cases h <;> exact ⟨rfl, rfl⟩
  · rintro ⟨found, rfl⟩
    cases kind <;> cases found <;> constructor

/-- An operation is read as soon as its right operand is tighter than the operator, by how much ever. -/
theorem Reads.operation {op : BinaryOp} {p : Precedence} {l r : Expr} {t : Token} {ts mid rest : List Token}
    (span : Span) (left : Reads (.expression op.precedence) l ts (t :: mid))
    (kind : Continuation.ofKind? t.kind = some (.binary op)) (tighter : op.precedence < p)
    (right : Reads (.expression p) r mid rest) :
    Reads (.expression op.precedence) (.binary op l r span) ts rest := by
  obtain ⟨q, next⟩ := exists_next tighter
  exact .binary span left (sign_iff.2 ⟨kind, rfl⟩) next (right.loosen (next.rank_eq ▸ tighter))

/-- The parser goes on with a token if and only if an expression does. -/
theorem carriesOn_iff {kind : TokenKind} : CarriesOn kind ↔ ∃ c, Continuation.ofKind? kind = some c := by
  constructor
  · rintro (⟨sign⟩ | _ | _)
    · exact ⟨_, (sign_iff.1 sign).1⟩
    · exact ⟨.call, rfl⟩
    · exact ⟨.index, rfl⟩
  · rintro ⟨c, found⟩
    cases c with
    | binary op => exact .sign (sign_iff.2 ⟨found, rfl⟩)
    | call =>
      cases kind <;> cases found
      exact .call
    | index =>
      cases kind <;> cases found
      exact .index

/-- The parser takes the digits from the left, and finds the value that each of them has a part in by its place. -/
theorem digitsValue_eq_numeral (digits : List Char) : digitsValue digits = numeral digits := by
  have folded (n : Nat) : digits.foldl (fun n c => 10 * n + (c.toNat - '0'.toNat)) n =
      n * Nat.pow 10 digits.length + numeral digits := by
    induction digits generalizing n with
    | nil => exact (Nat.mul_one n).symm
    | cons c cs ih =>
      have further : Nat.pow 10 (c :: cs).length = 10 * Nat.pow 10 cs.length := Nat.mul_comm _ _
      rw [List.foldl_cons, ih, numeral, further, Nat.add_mul, Nat.add_assoc, Nat.mul_comm 10 n, Nat.mul_assoc]
  rw [digitsValue, folded, Nat.zero_mul, Nat.zero_add]

/-- The next token does not carry an expression on more tightly than `p` binds. -/
def Follows (p : Precedence) (rest : List Token) : Prop :=
  ∀ t ∈ rest.head?, ∀ c, Continuation.ofKind? t.kind = some c → ¬ p < c.precedence

/-- An expression of the level `q` can be read where operators have to bind more tightly than `above`. A single
operand, with or without a sign, can stand anywhere. -/
def Admits (above q : Precedence) : Prop := above < q ∨ q = .unary ∨ q = .call

theorem Precedence.rank_le (p : Precedence) : p.rank ≤ 6 := by
  cases p <;> decide

theorem Precedence.not_call_lt (p : Precedence) : ¬ Precedence.call < p := Nat.not_lt.2 (Precedence.rank_le p)

theorem Continuation.lowest_lt (c : Continuation) : Precedence.lowest < c.precedence := by
  rcases c with op | _ | _
  · cases op <;> decide
  · decide
  · decide

theorem follows_call (rest : List Token) : Follows .call rest := by
  intro t _ c _ tighter
  exact Precedence.not_call_lt c.precedence tighter

theorem Follows.mono {p q : Precedence} {rest : List Token} (h : Follows p rest) (le : p.rank ≤ q.rank) :
    Follows q rest := by
  intro t next c kind tighter
  exact h t next c kind (Nat.lt_of_le_of_lt le tighter)

theorem Follows.not_carriesOn {rest : List Token} (h : Follows .lowest rest) :
    ∀ t ∈ rest.head?, ¬ CarriesOn t.kind := by
  intro t next carries
  obtain ⟨c, kind⟩ := carriesOn_iff.1 carries
  exact h t next c kind (Continuation.lowest_lt c)

/-- What can stand before a continuation has at least its level, since nothing tighter comes next. -/
theorem Follows.reads {q : Precedence} {e : Expr} {ts rest : List Token} {t : Token} {c : Continuation}
    (h : Follows q (t :: rest)) (kind : Continuation.ofKind? t.kind = some c)
    (reads : Reads (.expression q) e ts (t :: rest)) : Reads (.expression c.precedence) e ts (t :: rest) :=
  reads.loosen (Nat.not_lt.1 (h t rfl c kind))


/-- Whether a token of this kind can begin an expression. -/
def beginsExpression : TokenKind → Bool
  | .ident | .int | .str | .trueWord | .falseWord | .bang | .minus | .lparen | .ifWord | .fnWord | .lbracket
  | .lbrace => true
  | _ => false

theorem ne_of_beginsExpression {kind other : TokenKind} (h : beginsExpression kind)
    (not : beginsExpression other = false) : kind ≠ other := by
  intro same
  rw [same, not] at h
  cases h

/-- The tokens start as those of the symbol do, so far as the parser decides by it. -/
def Symbol.Begins : Symbol → List Token → Prop
  | .expression _, ts | .primary, ts | .parameter, ts | .pair, ts =>
    ∃ t us, ts = t :: us ∧ beginsExpression t.kind
  | .items item, ts => item.Begins ts
  | .statement, ts => ∃ t us, ts = t :: us ∧ (beginsExpression t.kind ∨ t.kind = .letWord ∨ t.kind = .returnWord)
  | .block, ts => ∃ t us, ts = t :: us ∧ t.kind = .lbrace
  | .list .., _ | .statements, _ | .alternative, _ => True

theorem Reads.begins {symbol : Symbol} {a : symbol.Node} {ts rest : List Token} (h : Reads symbol a ts rest) :
    symbol.Begins ts := by
  induction h with
  | tighter _ _ ih | primary _ ih => exact ih
  | call _ _ _ _ ih | index _ _ _ _ _ ih | binary _ _ _ _ _ ih => exact ih
  | pair _ _ _ ih | one _ ih | more _ _ _ ih => exact ih
  | not _ kind | neg _ kind | name _ kind | str _ kind | trueWord _ kind | falseWord _ kind | parameter _ kind =>
    exact ⟨_, _, rfl, by rw [kind]; rfl⟩
  | int _ kind | grouped kind | cond _ kind | function _ kind | array _ kind | hash _ kind =>
    exact ⟨_, _, rfl, by rw [kind]; rfl⟩
  | bind _ _ kind => exact ⟨_, _, rfl, .inr (.inl kind)⟩
  | ret _ kind | bareRet _ kind | lastRet _ kind => exact ⟨_, _, rfl, .inr (.inr kind)⟩
  | expr _ _ ih =>
    obtain ⟨t, us, tokens, begins⟩ := ih
    exact ⟨t, us, tokens, .inl begins⟩
  | block _ kind | cutBlock _ kind => exact ⟨_, _, rfl, kind⟩
  | _ => trivial

theorem kind_of_call {kind : TokenKind} (h : Continuation.ofKind? kind = some .call) : kind = .lparen := by
  revert h
  cases kind <;> simp [Continuation.ofKind?]

theorem kind_of_index {kind : TokenKind} (h : Continuation.ofKind? kind = some .index) : kind = .lbracket := by
  revert h
  cases kind <;> simp [Continuation.ofKind?]

/-- A row of digits stands for its value, if that is not too large. -/
theorem Reads.integer {t : Token} {rest : List Token} (span : Span) (kind : t.kind = .int)
    (fits : digitsValue t.literal.toList ≤ Int64.maxValue.toInt.toNat) :
    Reads .primary (.int (.ofNat (digitsValue t.literal.toList)) span) (t :: rest) rest := by
  have largest : Int64.maxValue.toInt.toNat = 2 ^ 63 - 1 := by decide
  exact .int span kind (by rw [Int64.toInt_ofNat_of_lt (by omega), digitsValue_eq_numeral])

/-- The next token is not `else`. -/
def NoElse (rest : List Token) : Prop := ∀ t ∈ rest.head?, t.kind ≠ .elseWord

/-- The parser looks for more than `p` in operators, finds the rest and stops before it. -/
def Stops (p : Precedence) (rest : List Token) : Prop := NoElse rest ∧ Follows p rest

/-- A statement that needs no semicolon is not extended by the next token. -/
def Settled (rest : List Token) : Prop := ∀ t ∈ rest.head?, t.kind ≠ .semicolon ∧ t.kind ≠ .elseWord

/-- Statements come to an end before this. -/
def Closed (inBlock : Bool) (rest : List Token) : Prop :=
  rest = [] ∨ inBlock ∧ ∃ t us, rest = t :: us ∧ t.kind = .rbrace

/-- The loop for operators above a level takes all expressions of the level `q`. -/
def Suits (above q : Precedence) : Prop := above < q ∨ above = q ∧ (q = .lowest ∨ q = .unary)

theorem Suits.stops {above q : Precedence} {rest : List Token} (h : Suits above q) (stops : Stops above rest) :
    Stops q rest := by
  rcases h with lt | ⟨rfl, _⟩
  · exact ⟨stops.1, stops.2.mono (Nat.le_of_lt lt)⟩
  · exact stops

theorem Suits.tighter {above p q : Precedence} (h : Suits above p) (lt : p < q) : Suits above q := by
  rcases h with lt' | ⟨rfl, _⟩
  · exact .inl (Nat.lt_trans lt' lt)
  · exact .inl lt

theorem Suits.lt_of_binary {above : Precedence} {op : BinaryOp} (h : Suits above op.precedence) :
    above < op.precedence := by
  rcases h with lt | ⟨_, lowest | unary⟩
  · exact lt
  · cases op <;> cases lowest
  · cases op <;> cases unary

theorem Suits.lt_call {above : Precedence} (h : Suits above .call) : above < .call := by
  rcases h with lt | ⟨_, lowest | unary⟩
  · exact lt
  · cases lowest
  · cases unary

/-- A token that neither carries an expression on nor begins an alternative stops the parser at any level. -/
theorem stops_cons {p : Precedence} {t : Token} {rest : List Token} {kind : TokenKind} (h : t.kind = kind)
    (ends : Continuation.ofKind? kind = none) (noElse : kind ≠ .elseWord) : Stops p (t :: rest) := by
  refine ⟨fun t' next => ?_, fun t' next c carries => ?_⟩
  · cases next
    exact h ▸ noElse
  · cases next
    rw [h, ends] at carries
    cases carries

/-- Before a binary operator the parser stops at the operator's own level. -/
theorem stops_continuation {t : Token} {rest : List Token} {c : Continuation}
    (kind : Continuation.ofKind? t.kind = some c) : Stops c.precedence (t :: rest) := by
  refine ⟨fun t' next => ?_, fun t' next c' carries => ?_⟩
  · cases next
    intro elseWord
    rw [elseWord] at kind
    cases kind
  · cases next
    cases kind.symm.trans carries
    exact Nat.lt_irrefl _

theorem Closed.settled {inBlock : Bool} {rest : List Token} (h : Closed inBlock rest) : Settled rest := by
  rcases h with rfl | ⟨_, t, us, rfl, kind⟩
  · exact fun t next => nomatch next
  · intro t' next
    cases next
    exact ⟨by rw [kind]; decide, by rw [kind]; decide⟩

theorem Settled.stops {rest : List Token} (h : Settled rest) (carries : ∀ t ∈ rest.head?, ¬ CarriesOn t.kind) :
    Stops .lowest rest :=
  ⟨fun t next => (h t next).2, fun t next c kind _ => carries t next (carriesOn_iff.2 ⟨c, kind⟩)⟩

/-- Before the end, or before a further statement, a statement is settled. -/
theorem Reads.settled {ss : List Statement} {ts rest : List Token} (h : Reads .statements ss ts rest) {inBlock : Bool}
    (closed : Closed inBlock rest) : Settled ts := by
  cases h with
  | noStatements => exact closed.settled
  | moreStatements first _ =>
    obtain ⟨t, us, rfl, starts⟩ := first.begins
    intro t' next
    cases next
    rcases starts with begins | letWord | returnWord
    · exact ⟨ne_of_beginsExpression begins rfl, ne_of_beginsExpression begins rfl⟩
    · exact ⟨by rw [letWord]; decide, by rw [letWord]; decide⟩
    · exact ⟨by rw [returnWord]; decide, by rw [returnWord]; decide⟩

/-- The expression of a statement ends where the parser stops. -/
theorem Ends.stops {mid rest : List Token} (h : Ends mid rest) (settled : Settled rest) : Stops .lowest mid := by
  cases h with
  | semicolon kind => exact stops_cons kind rfl (by decide)
  | nothing carries => exact settled.stops carries

end Grammar

end Monkey
