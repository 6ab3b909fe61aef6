import Monkey.Outline
import Monkey.Proofs.Lookahead

namespace Monkey

namespace Cursor.Row

variable {c c' c'' : Cursor} {t : Token} {ts us : List Token}

theorem append (first : Row c c' ts) (second : Row c'.advance c'' us) : Row c c'' (ts ++ us) := by
  induction first with
  | stay c => exact .move second
  | move _ ih => exact .move (ih second)

/-- The token on which one row ends and the other begins is counted once. -/
theorem trans (first : Row c c' ts) (second : Row c' c'' (t :: us)) : Row c c'' (ts ++ us) := by
  cases second with
  | stay => rwa [List.append_nil]
  | move rest => exact first.append rest

theorem next (row : Row c c' ts) : Row c c'.advance (ts ++ [c'.peek]) := row.append (.stay c'.advance)

/-- A row ends with the token on which the cursor is in the end. -/
theorem getLast? (row : Row c c' ts) : ts.getLast? = some c'.current := by
  induction row with
  | stay c => rfl
  | move _ ih => rw [List.getLast?_cons, ih, Option.getD_some]

end Cursor.Row

section LastKind

variable {t : Token} {ts us : List Token} {kind : TokenKind}

@[simp] theorem lastKind?_nil : lastKind? [] = none := rfl

@[simp] theorem lastKind?_append (ts us : List Token) :
    lastKind? (ts ++ us) = (lastKind? us).or (lastKind? ts) := by
  rw [lastKind?, List.getLast?_append, Option.map_or, lastKind?, lastKind?]

@[simp] theorem lastKind?_cons (t : Token) (ts : List Token) :
    lastKind? (t :: ts) = (lastKind? ts).or (some t.kind) := by
  rw [← List.singleton_append, lastKind?_append]
  rfl

/-- The last token is not among the first ones, if these end with one of another kind. -/
theorem lastKind?_of_append (h : lastKind? (ts ++ us) = some kind) (other : lastKind? ts ≠ some kind) :
    lastKind? us = some kind := by
  rw [lastKind?_append, Option.or_eq_some_iff] at h
  exact h.resolve_right fun first => other first.2

theorem lastKind?_of_cons (h : lastKind? (t :: us) = some kind) (other : t.kind ≠ kind) :
    lastKind? us = some kind := by
  have first : lastKind? ([t] ++ us) = some kind := h
  exact lastKind?_of_append first fun same => other (Option.some.inj same)

end LastKind

section CutOff

variable {e child : Expr} {b : Block} {ts us : List Token}

/-- A block that comes last ends with the end token only when it is cut off. -/
theorem BlockText.endsCutOff (text : BlockText b us) (eof : lastKind? (ts ++ us) = some .eof)
    (other : lastKind? ts ≠ some .eof) (below : SyntaxNode.block b ∈ (SyntaxNode.expression e).children) :
    EndsCutOff e (ts ++ us) :=
  ⟨b, us, List.suffix_append ts us, text, lastKind?_of_append eof other, .under below (.self _)⟩

theorem EndsCutOff.append (h : EndsCutOff child us) (ts : List Token)
    (below : SyntaxNode.expression child ∈ (SyntaxNode.expression e).children) : EndsCutOff e (ts ++ us) := by
  obtain ⟨b, vs, ends, text, cut, within⟩ := h
  exact ⟨b, vs, ends.trans (List.suffix_append ts us), text, cut, .under below within⟩

end CutOff

namespace Phrase

/-- The last token of a list closes it; other phrases end with the end token only where a block in them is cut off. -/
def ClosesOrCuts : (p : Phrase) → p.Node → List Token → Prop
  | outline, o, ts => lastKind? ts = some .eof → EndsCutOff o.expr ts
  | expression, e, ts | closed, e, ts => lastKind? ts = some .eof → EndsCutOff e ts
  | list _ _ closing, _, ts => lastKind? ts = some closing
  | parameter, _, _ | pair, _, _ | items _, _, _ => True

theorem Written.closesOrCuts {p : Phrase} {a : p.Node} {ts : List Token} (h : p.Written a ts) :
    p.ClosesOrCuts a ts := by
  induction h with
  | closed _ ih | expression _ ih => exact ih
  | grouped _ _ closes | index _ _ _ _ closes =>
    intro eof
    simp [closes] at eof
  | @unary op o t ts span sign _ ih =>
    intro eof
    have other : t.kind ≠ .eof := fun kind => by simp [kind, UnaryOp.ofKind?] at sign
    have operand := ih (lastKind?_of_cons eof other)
    exact operand.append [t] (.head _)
  | @binary op l r t ts us span _ sign _ _ ih =>
    intro eof
    have other : t.kind ≠ .eof := fun kind => by simp [kind, BinaryOp.ofKind?] at sign
    rw [List.append_cons] at eof ⊢
    have right := ih (lastKind?_of_append eof (by simp [other]))
    exact right.append (ts ++ [t]) (.tail _ (.head _))
  | call _ _ _ _ closes =>
    intro eof
    have closes : lastKind? _ = some .rparen := closes
    simp [closes] at eof
  | @word e t stands =>
    intro eof
    obtain ⟨_, _, same, begins⟩ := stands.begins
    cases same
    exact absurd (Option.some.inj eof) (Grammar.ne_of_beginsExpression begins rfl)
  | array _ _ closes | hash _ _ closes =>
    intro eof
    exact absurd (closes.symm.trans eof) (by simp)
  | @cond c b a t t₁ t₂ ts us vs span _ _ _ closes body alternative _ =>
    intro eof
    cases alternative with
    | none =>
      have parts : t :: t₁ :: (ts ++ t₂ :: (us ++ [])) = (t :: t₁ :: (ts ++ [t₂])) ++ us := by simp
      rw [parts] at eof ⊢
      exact body.endsCutOff eof (by simp [closes]) (by simp [SyntaxNode.children])
    | @some b' word ws elseWord body' =>
      have parts : t :: t₁ :: (ts ++ t₂ :: (us ++ word :: ws)) = (t :: t₁ :: (ts ++ t₂ :: (us ++ [word]))) ++ ws := by
        simp
      rw [parts] at eof ⊢
      exact body'.endsCutOff eof (by simp [elseWord]) (by simp [SyntaxNode.children])
  | @function ps b t ts us place _ _ body closes =>
    intro eof
    have closes : lastKind? ts = some .rparen := closes
    rw [← List.cons_append] at eof ⊢
    exact body.endsCutOff eof (by simp [closes]) (by simp [SyntaxNode.children])
  | emptyList _ closes | list _ _ closes => simp [ClosesOrCuts, closes]
  | parameter | pair | one | more => trivial

end Phrase

end Monkey
