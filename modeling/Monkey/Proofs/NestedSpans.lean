import Monkey.Proofs.Discipline
import Monkey.Proofs.NodeRows
import Monkey.Proofs.ParserTotal

namespace Monkey

open Lexer (ofString)

namespace Parser

open CallTree (charts_forall)

/-- The current token is the one with the index. -/
def State.At (source : String) (i : Nat) (s : State) : Prop := s.cursor = .ofLexer ((ofString source).skip i)

/-- When the operand stands before token `i`, the expression takes its place and goes on up to token `j`. -/
def Grows (source : String) (left : Expr) (i j : Nat) (e : Expr) : Prop :=
  ∀ h, NodeRow source h i [.expression left] → NodeRow source h (j + 1) [.expression e]

/-- The two nodes of a pair of a hash. -/
def pairNodes (p : Expr × Expr) : List SyntaxNode := [.expression p.1, .expression p.2]

/-- The nodes that the goal yields, started on token `i`, are in a row up to token `j`. -/
def Laid (source : String) : (goal : Goal) → (i j : Nat) → goal.Result → Prop
  | .statement, i, j, st => NodeRow source i (j + 1) [.statement st]
  | .statements _, i, j, ss => NodeRow source i (j + 1) (ss.map .statement)
  | .expression _, i, j, e => NodeRow source i (j + 1) [.expression e]
  | .continued _ left, i, j, e => Grows source left (i + 1) j e
  | .moreExpressions, i, j, es => NodeRow source (i + 1) (j + 1) (es.flatMap fun e => [.expression e])
  | .morePairs, i, j, ps => NodeRow source (i + 1) (j + 1) (ps.flatMap pairNodes)
  | .moreParameters, i, j, ids => NodeRow source (i + 1) (j + 1) (ids.flatMap fun id => [.identifier id])

/-- The outcome on a token that is not before `i`; a value is good for that token. -/
def Reaches {α : Type} (source : String) (i : Nat) (good : Nat → α → Prop) (r : Except GivenUp α) (t : State) : Prop :=
  ∃ j, i ≤ j ∧ t.At source j ∧ ∀ a, r = .ok a → good j a

/-- A state and an index for its current token. -/
structure Spot where
  index : Nat
  state : State

namespace Spot

def advance (p : Spot) : Spot := ⟨p.index + 1, p.state.advance⟩

def countLiteral (p : Spot) : Spot := { p with state := p.state.countLiteral }

/-- The index is that of the current token. -/
def Here (source : String) (p : Spot) : Prop := p.state.At source p.index

end Spot

theorem State.At.advance {source : String} {i : Nat} {s : State} (here : s.At source i) :
    s.advance.At source (i + 1) := by
  unfold State.At at here ⊢
  rw [State.advance, here]
  rfl

theorem State.At.current {source : String} {i : Nat} {s : State} (here : s.At source i) :
    s.cursor.current = tokenAt source i := by
  rw [show s.cursor = _ from here]
  rfl

/-- The current token is never an earlier one than before. -/
def layout (source : String) : Discipline Spot.state Spot.advance Spot.countLiteral where
  Calls _ _ := True
  Kept goal s _ r t := ∀ i, s.At source i → Reaches source i (Laid source goal i) r t
  Holds := Spot.Here source
  Moves p _ q := p.index ≤ q.index
  GivesUp p _ t := ∃ j, p.index ≤ j ∧ t.At source j
  lawful.state_onward _ := rfl
  lawful.state_numbered _ := rfl
  lawful.holds_onward := State.At.advance
  lawful.holds_numbered here := here
  lawful.refl _ := Nat.le_refl _
  lawful.trans := Nat.le_trans
  lawful.givesUp := by
    rintro _ _ _ _ _ le ⟨j, le', there⟩
    exact ⟨j, Nat.le_trans le le', there⟩
  lawful.moves_onward _ := Nat.le_succ _
  lawful.moves_numbered _ := Nat.le_refl _
  lawful.fail here _ := ⟨_, Nat.le_refl _, here⟩

/-- The production, started in the spot, comes to a good value if to any, if all goals lay out theirs. -/
abbrev Lays {α : Type} (source : String) (m : Parser α) (p : Spot) (good : α → Spot → Prop) : Prop :=
  (layout source).Has m p good

section Productions

variable {α : Type} {source : String} {p q : Spot}

theorem index_le (leads : (layout source).Leads p q) : p.index ≤ q.index := leads.moves.elim fun _ le => le

theorem ends_iff_reaches {good : Nat → α → Prop} {trace : Trace} {r : Except GivenUp α} {t : State} :
    (layout source).Ends p (fun a q => good q.index a) trace r t ↔ Reaches source p.index good r t := by
  constructor
  · intro ends
    cases r with
    | ok a =>
      obtain ⟨q, rfl, there, le, holds⟩ := ends
      refine ⟨q.index, le, there, fun a' same => ?_⟩
      cases same
      exact holds
    | error e =>
      obtain ⟨j, le, there⟩ := ends
      exact ⟨j, le, there, nofun⟩
  · rintro ⟨j, le, there, holds⟩
    cases r with
    | ok a => exact ⟨⟨j, t⟩, rfl, there, le, holds a rfl⟩
    | error e => exact ⟨j, le, there⟩

theorem lays_call (goal : Goal) : Lays source (Routine.call goal) p fun a q => Laid source goal p.index q.index a :=
  .call (fun _ => trivial) fun here _ _ _ kept => ends_iff_reaches.2 (kept p.index here)

theorem lays_expression :
    Lays source expression p fun e q => NodeRow source p.index (q.index + 1) [.expression e] :=
  lays_call (.expression .lowest)

theorem lays_moreItems {item : Parser α} {more : Parser (List α)} {nodes : α → List SyntaxNode}
    (items : ∀ p, Lays source item p fun a q => NodeRow source p.index (q.index + 1) (nodes a))
    (others : ∀ p, Lays source more p fun as q => NodeRow source (p.index + 1) (q.index + 1) (as.flatMap nodes)) :
    Lays source (moreItems item more) p fun as q =>
      NodeRow source (p.index + 1) (q.index + 1) (as.flatMap nodes) := by
  refine .moreItems (fun _ => .nil (Nat.le_refl _)) (fun _ => items _) fun first q _ _ firstRow => ?_
  refine (others q).mono fun rest r _ othersRow => ?_
  exact (firstRow.append othersRow).mono (Nat.le_succ _) (Nat.le_refl _)

theorem lays_bracketed {closing : TokenKind} {item : Parser α} {more : Parser (List α)} {nodes : α → List SyntaxNode}
    (items : ∀ p, Lays source item p fun a q => NodeRow source p.index (q.index + 1) (nodes a))
    (others : ∀ p, Lays source more p fun as q => NodeRow source (p.index + 1) (q.index + 1) (as.flatMap nodes)) :
    Lays source (bracketed closing item more) p fun as q =>
      NodeRow source (p.index + 1) (q.index + 1) (as.flatMap nodes) := by
  refine .bracketed (fun _ => .nil (Nat.le_succ _)) (items _) fun first q _ firstRow => ?_
  refine (others q).mono fun rest r _ othersRow _ => ?_
  exact (firstRow.append othersRow).mono (Nat.le_refl _) (Nat.le_succ _)

theorem lays_expressionList {closing : TokenKind} :
    Lays source (expressionList closing) p fun es q =>
      NodeRow source (p.index + 1) (q.index + 1) (es.map .expression) :=
  (lays_bracketed (fun _ => lays_expression) fun _ => lays_call .moreExpressions).mono
    fun _ _ _ row => List.map_eq_flatMap ▸ row

theorem lays_pair : Lays source pair p fun x q => NodeRow source p.index (q.index + 1) (pairNodes x) := by
  unfold pair
  refine .bind lays_expression fun key q _ keyRow => .expectPeek fun _ => .advance ?_
  refine .bind lays_expression fun value r _ valueRow => .pure ?_
  exact keyRow.append (valueRow.mono (Nat.le_succ _) (Nat.le_refl _))

/-- The parentheses are not part of the span. -/
theorem lays_grouped : Lays source grouped p fun e q => NodeRow source p.index (q.index + 1) [.expression e] := by
  unfold grouped
  refine .advance (.bind lays_expression fun e q _ row => .expectPeek fun _ => .pure ?_)
  exact row.mono (Nat.le_succ _) (Nat.le_succ _)

theorem lays_returnValue :
    Lays source returnValue p fun value q =>
      NodeRow source (p.index + 1) (q.index + 1) (value.toList.map .expression) := by
  unfold returnValue
  refine .peekKind ?_
  split
  · exact .pure (.nil (Nat.le_refl _))
  · exact .pure (.nil (Nat.le_refl _))
  · exact .pure (.nil (Nat.le_refl _))
  · exact .advance (.bind lays_expression fun e q _ row => .pure row)

/-- Statements that are given up leave their tokens behind all the same. -/
theorem lays_statements {inBlock : Bool} :
    Lays source (produce (.statements inBlock)) p fun ss q =>
      Laid source (.statements inBlock) p.index q.index ss := by
  unfold produce
  refine .current ?_
  dsimp only
  split
  · exact .pure (.nil (Nat.le_succ _))
  · refine .attempt (fun _ => trivial) fun here inside read t kept => ?_
    obtain ⟨j, le, there, laid⟩ := kept p.index here
    refine ⟨⟨j + 1, t.advance⟩, rfl, there.advance, Nat.le_succ_of_le le, ?_⟩
    refine .bind (lays_call (.statements inBlock)) fun rest r _ restRow => ?_
    cases read with
    | ok st => exact .pure (NodeRow.append (laid st rfl) restRow)
    | error _ => exact .pure (NodeRow.mono restRow (Nat.le_succ_of_le le) (Nat.le_refl _))

variable (short : source.utf8ByteSize < UInt32.size)

include short

/-- A node that is made of the current token. -/
theorem row_of_current (here : p.Here source) {n : SyntaxNode} (real : p.state.cursor.current.kind ≠ .eof)
    (span : n.span = p.state.cursor.current.span) (leaf : n.children = []) :
    NodeRow source p.index (p.index + 1) [n] := by
  rw [State.At.current here] at real span
  exact .one (Nat.le_refl _) (covers_of_token short real span leaf) (Nat.lt_succ_self _)

/-- A node that goes from the current token of the one spot to that of the other. -/
theorem row_between (here : p.Here source) (there : q.Here source) {n : SyntaxNode}
    (real : p.state.cursor.current.kind ≠ .eof)
    (span : n.span = p.state.cursor.current.span.merge q.state.cursor.current.span) (le : p.index ≤ q.index)
    (row : NodeRow source p.index (q.index + 1) n.children) : NodeRow source p.index (q.index + 1) [n] := by
  rw [State.At.current here] at real span
  rw [State.At.current there] at span
  exact row_of_merge short le real span row

/-- An expression to which tokens are taken up to the current one. -/
theorem row_grown (there : q.Here source) {h k : Nat} {left : Expr} {n : SyntaxNode} {ns : List SyntaxNode}
    (row : NodeRow source h k [.expression left]) (behind : k ≤ q.index)
    (span : n.span = left.span.merge q.state.cursor.current.span) (children : n.children = .expression left :: ns)
    (others : NodeRow source k (q.index + 1) ns) : NodeRow source h (q.index + 1) [n] := by
  rw [State.At.current there] at span
  exact row.grow short behind (Nat.le_refl _) span children others

theorem lays_parameter : Lays source parameter p fun id q => NodeRow source p.index (q.index + 1) [.identifier id] := by
  unfold parameter
  refine .intro fun here => .current ?_
  split
  · next ident => exact .pure (row_of_current short here (by rw [ident]; decide) rfl rfl)
  · exact .fail .current (.unexpected .ident)

theorem lays_block (real : p.state.cursor.current.kind ≠ .eof) :
    Lays source block p fun b q => NodeRow source p.index (q.index + 1) [.block b] := by
  unfold block
  refine .intro fun here => .current (.advance (.bind (lays_call (.statements true)) fun ss q leads row => ?_))
  have le : p.index + 1 ≤ q.index := index_le leads
  refine .spanFrom (.pure (row_between short here leads.holds real rfl (Nat.le_of_succ_le le) ?_))
  exact NodeRow.mono row (Nat.le_succ _) (Nat.le_refl _)

theorem lays_alternative :
    Lays source alternative p fun b q => NodeRow source (p.index + 1) (q.index + 1) (b.toList.map .block) := by
  unfold alternative
  refine .peekKind ?_
  split
  · refine .advance (.expectPeek fun brace => ?_)
    have real : p.advance.advance.state.cursor.current.kind ≠ .eof := fun eof => nomatch brace.symm.trans eof
    refine .bind (lays_block short real) fun b q _ row => .pure ?_
    exact row.mono (Nat.le_succ _) (Nat.le_refl _)
  · exact .pure (.nil (Nat.le_refl _))

theorem lays_integer (real : p.state.cursor.current.kind ≠ .eof) :
    Lays source integer p fun e q => NodeRow source p.index (q.index + 1) [.expression e] := by
  unfold integer
  refine .intro fun here => .current ?_
  dsimp only
  split
  · exact .pure (row_of_current short here real rfl rfl)
  · exact .fail .current .tooLarge

theorem lays_unary {op : UnaryOp} (real : p.state.cursor.current.kind ≠ .eof) :
    Lays source (unary op) p fun e q => NodeRow source p.index (q.index + 1) [.expression e] := by
  unfold unary
  refine .intro fun here => .current (.advance (.bind (lays_call (.expression .unary)) fun e q leads row => ?_))
  have le : p.index + 1 ≤ q.index := index_le leads
  refine .spanFrom (.pure (row_between short here leads.holds real rfl (Nat.le_of_succ_le le) ?_))
  exact NodeRow.mono row (Nat.le_succ _) (Nat.le_refl _)

theorem lays_conditional (real : p.state.cursor.current.kind ≠ .eof) :
    Lays source conditional p fun e q => NodeRow source p.index (q.index + 1) [.expression e] := by
  unfold conditional
  refine .intro fun here => .current (.expectPeek fun _ => .advance ?_)
  refine .bind lays_expression fun condition q leads conditionRow => .expectPeek fun _ => .expectPeek fun brace => ?_
  have opens : q.advance.advance.state.cursor.current.kind ≠ .eof := fun eof => nomatch brace.symm.trans eof
  refine .bind (lays_block short opens) fun consequence r leads' blockRow => ?_
  refine .bind (lays_alternative short) fun alternative t leads'' alternativeRow => ?_
  have toCondition : p.index + 1 + 1 ≤ q.index := index_le leads
  have toBlock : q.index + 1 + 1 ≤ r.index := index_le leads'
  have toAlternative : r.index ≤ t.index := index_le leads''
  refine .spanFrom (.pure (row_between short here leads''.holds real rfl (by omega) ?_))
  have blocks := blockRow.append alternativeRow
  have children := conditionRow.append (blocks.mono (Nat.le_succ _) (Nat.le_refl _))
  exact children.mono (Nat.le_add_right p.index 2) (Nat.le_refl _)

theorem lays_function (real : p.state.cursor.current.kind ≠ .eof) :
    Lays source function p fun e q => NodeRow source p.index (q.index + 1) [.expression e] := by
  have parameters (p : Spot) : Lays source (bracketed .rparen parameter moreParameters) p fun ids q =>
      NodeRow source (p.index + 1) (q.index + 1) (ids.flatMap fun id => [.identifier id]) :=
    lays_bracketed (fun _ => lays_parameter short) fun _ => lays_call .moreParameters
  unfold function
  refine .intro fun here => .current (.expectPeek fun _ => .bind (parameters _) fun ids q leads parametersRow => ?_)
  refine .expectPeek fun brace => ?_
  have opens : q.advance.state.cursor.current.kind ≠ .eof := fun eof => nomatch brace.symm.trans eof
  refine .bind (lays_block short opens) fun body r leads' blockRow => .spanFrom (.freshLiteral (.pure ?_))
  have toParameters : p.index + 1 ≤ q.index := index_le leads
  have toBlock : q.index + 1 ≤ r.index := index_le leads'
  refine row_between short here leads'.holds real rfl (by omega) ?_
  rw [← List.map_eq_flatMap] at parametersRow
  exact (parametersRow.append blockRow).mono (Nat.le_add_right p.index 2) (Nat.le_refl _)

theorem lays_array (real : p.state.cursor.current.kind ≠ .eof) :
    Lays source array p fun e q => NodeRow source p.index (q.index + 1) [.expression e] := by
  unfold array
  refine .intro fun here => .current (.bind lays_expressionList fun elements q leads row => .spanFrom (.pure ?_))
  refine row_between short here leads.holds real rfl (index_le leads) ?_
  exact row.mono (Nat.le_succ _) (Nat.le_refl _)

theorem lays_hash (real : p.state.cursor.current.kind ≠ .eof) :
    Lays source hash p fun e q => NodeRow source p.index (q.index + 1) [.expression e] := by
  have pairs : Lays source (bracketed .rbrace pair morePairs) p fun ps q =>
      NodeRow source (p.index + 1) (q.index + 1) (ps.flatMap pairNodes) :=
    lays_bracketed (fun _ => lays_pair) fun _ => lays_call .morePairs
  unfold hash
  refine .intro fun here => .current (.bind pairs fun _ q leads row => .spanFrom (.pure ?_))
  refine row_between short here leads.holds real rfl (index_le leads) ?_
  exact row.mono (Nat.le_succ _) (Nat.le_refl _)

theorem lays_name (real : p.state.cursor.current.kind ≠ .eof) {id : Identifier}
    (span : id.span = p.state.cursor.current.span) :
    Lays source (pure (.name id)) p fun e q => NodeRow source p.index (q.index + 1) [.expression e] := by
  refine .intro fun here => .pure ?_
  have row := row_of_current short here (n := .identifier id) real span rfl
  rw [State.At.current here] at real span
  have name : Covers source p.index p.index (.expression (.name id)) :=
    covers_of_row short (Nat.le_refl _) real span row
  exact .one (Nat.le_refl _) name (Nat.lt_succ_self _)

theorem lays_operand : Lays source operand p fun e q => NodeRow source p.index (q.index + 1) [.expression e] := by
  unfold operand
  refine .intro fun here => .current ?_
  by_cases eof : p.state.cursor.current.kind = .eof
  · rw [eof]
    exact .fail .current (eof ▸ .noExpression)
  split
  · exact lays_name short eof rfl
  · exact lays_integer short eof
  · exact .pure (row_of_current short here eof rfl rfl)
  · exact .pure (row_of_current short here eof rfl rfl)
  · exact .pure (row_of_current short here eof rfl rfl)
  · exact lays_unary short eof
  · exact lays_unary short eof
  · exact lays_grouped
  · exact lays_conditional short eof
  · exact lays_function short eof
  · exact lays_array short eof
  · exact lays_hash short eof
  · exact .fail .current .noExpression

/-- The operand may have parentheses around it, so it is the first token of its own that the expression starts with. -/
theorem lays_extend {left : Expr} {c : Continuation} :
    Lays source (extend left c) p fun e q => Grows source left p.index q.index e := by
  unfold extend
  cases c with
  | binary op =>
    refine .advance (.bind (lays_call (.expression op.precedence)) fun right q _ rightRow => .pure fun h leftRow => ?_)
    obtain ⟨a, b, from_, covers, ends⟩ := NodeRow.exists_covers rightRow
    have behind : p.index + 1 ≤ a := from_
    have rightOnly := NodeRow.one (Nat.le_of_succ_le behind) covers (Nat.lt_succ_self b)
    have grown := leftRow.grow short (n := .expression (.binary op left right _)) (Nat.le_of_succ_le behind) covers.le
      (congrArg left.span.merge covers.span) rfl rightOnly
    exact grown.mono (Nat.le_refl h) ends
  | call =>
    refine .bind lays_expressionList fun arguments q leads row => .spanFrom (.pure fun h leftRow => ?_)
    exact row_grown short leads.holds leftRow (index_le leads) rfl rfl (row.mono (Nat.le_succ _) (Nat.le_refl _))
  | index =>
    refine .advance (.bind lays_expression fun index q leads row => .expectPeek fun _ => .intro fun there => ?_)
    have le : p.index + 1 ≤ q.index := index_le leads
    refine .spanFrom (.pure fun h leftRow => ?_)
    have behind : p.index ≤ q.advance.index := Nat.le_succ_of_le (Nat.le_of_succ_le le)
    exact row_grown short there leftRow behind rfl rfl (row.mono (Nat.le_succ _) (Nat.le_succ _))

theorem lays_letStatement (real : p.state.cursor.current.kind ≠ .eof) :
    Lays source letStatement p fun st q => NodeRow source p.index (q.index + 1) [.statement st] := by
  unfold letStatement
  refine .intro fun here => .current (.expectPeek fun ident => .intro fun there => .current (.expectPeek fun _ => ?_))
  refine .advance (.bind lays_expression fun value q leads valueRow => .skipSemicolon fun r _ _ leads' => ?_)
  have toValue : p.index + 1 + 1 + 1 ≤ q.index := index_le leads
  have toEnd := index_le leads'
  refine .spanFrom (.pure (row_between short here leads'.holds real rfl (by omega) ?_))
  have name : p.advance.state.cursor.current.kind ≠ .eof := fun eof => nomatch ident.symm.trans eof
  have nameRow (id : Identifier) (span : id.span = p.advance.state.cursor.current.span) :=
    row_of_current (n := .identifier id) short there name span rfl
  exact ((nameRow _ rfl).mono (Nat.le_succ _) (Nat.le_refl _)).append (valueRow.mono (Nat.le_succ _) (by omega))

theorem lays_returnStatement (real : p.state.cursor.current.kind ≠ .eof) :
    Lays source returnStatement p fun st q => NodeRow source p.index (q.index + 1) [.statement st] := by
  unfold returnStatement
  refine .intro fun here => .current (.bind lays_returnValue fun value q leads row => ?_)
  refine .skipSemicolon fun r _ _ leads' => ?_
  have le := index_le leads'
  refine .spanFrom (.pure (row_between short here leads'.holds real rfl (Nat.le_trans (index_le leads) le) ?_))
  exact row.mono (Nat.le_succ _) (Nat.succ_le_succ le)

theorem lays_statement : Lays source (produce .statement) p fun st q => Laid source .statement p.index q.index st := by
  unfold produce
  refine .current ?_
  split
  · next kind => exact lays_letStatement short fun eof => nomatch kind.symm.trans eof
  · next kind => exact lays_returnStatement short fun eof => nomatch kind.symm.trans eof
  · refine .bind lays_expression fun e q _ row => .skipSemicolon fun r _ _ leads => .pure ?_
    have le := index_le leads
    obtain ⟨a, b, from_, covers, ends⟩ := row.exists_covers
    have value := NodeRow.one (Nat.le_refl a) covers (Nat.lt_succ_self b)
    have statement : Covers source a b (.statement (.expr e)) :=
      covers_of_row short covers.le covers.real covers.span value
    exact .one from_ statement (by omega)

theorem lays_continued {above : Precedence} {left : Expr} :
    Lays source (produce (.continued above left)) p fun e q =>
      Laid source (.continued above left) p.index q.index e := by
  unfold produce
  refine .peekKind ?_
  split
  · split
    · refine .advance (.bind (lays_extend short) fun e q _ grows => ?_)
      exact (lays_call (.continued above e)).mono fun e' r _ grows' h leftRow => grows' h (grows h leftRow)
    · exact .pure fun h leftRow => leftRow
  · exact .pure fun h leftRow => leftRow

/-- Every production yields nodes in a row. -/
theorem produce_lays (goal : Goal) :
    Lays source (produce goal) p fun a q => Laid source goal p.index q.index a := by
  cases goal with
  | statement => exact lays_statement short
  | statements inBlock => exact lays_statements
  | expression above =>
    refine .bind (lays_operand short) fun left q _ leftRow => ?_
    exact (lays_call (.continued above left)).mono fun e r _ grows => grows p.index leftRow
  | continued above left => exact lays_continued short
  | moreExpressions => exact lays_moreItems (fun _ => lays_expression) fun _ => lays_call .moreExpressions
  | morePairs => exact lays_moreItems (fun _ => lays_pair) fun _ => lays_call .morePairs
  | moreParameters => exact lays_moreItems (fun _ => lays_parameter short) fun _ => lays_call .moreParameters

/-- Every goal lays out its nodes, from whatever token it is counted. -/
theorem keeps_layout (goal : Goal) (s : State) (_ : (layout source).Calls goal s) :
    (produce goal s).Charts (layout source).Calls (layout source).Kept ((layout source).Kept goal s) := by
  refine charts_forall (fun _ _ => trivial) fun i => charts_forall (fun _ _ => trivial) fun here => ?_
  exact (produce_lays short goal (p := ⟨i, s⟩) here).mono fun _ _ _ ends => ends_iff_reaches.1 ends

end Productions

end Parser

open Monkey.Parser in
/-- The spans of a program nest, whether its text is read with errors or without. Every node, from the statements down,
takes whole tokens, or goes up to the end of input; its children lie in it one after the other as they are written, and
so do the statements of the program in the text. -/
theorem parse_nested {source : String} (short : source.utf8ByteSize < UInt32.size) :
    (∀ st ∈ (parse source).program.statements, ∀ n : SyntaxNode, n.Within (.statement st) → n.Nested source) ∧
      (parse source).program.statements.Pairwise fun st next => st.span.stop ≤ next.span.start := by
  obtain ⟨ss, t, returns, parsed⟩ := exists_returns_parse source
  obtain ⟨trace, run⟩ := returns.exists_traces
  have start : Spot.Here source ⟨0, State.start source⟩ := rfl
  have ends := run.charts (keeps_layout short) (lays_call (.statements false) start)
  obtain ⟨j, _, _, laid⟩ := ends_iff_reaches.1 ends
  have row : NodeRow source 0 (j + 1) (ss.map .statement) := laid ss rfl
  rw [parsed]
  refine ⟨fun st mem n within => ?_, List.pairwise_map.1 (row.pairwise short)⟩
  obtain ⟨_, _, _, covers, _⟩ := row.exists_covers_of_mem (List.mem_map_of_mem mem)
  exact covers.nested n within

/-- Operands in parentheses, a statement that is dropped, and blocks that the end of the text cuts off. -/
theorem parse_nested_cutBlocks :
    let source := "let a = (1 + -f(x))[(2)]; let = 3; if (a) \x7b \x7b1: fn(y) \x7b y \x7d\x7d; return "
    source.utf8ByteSize < UInt32.size ∧
      (parse source).program.statements.map (·.span) = [⟨0, 25⟩, ⟨32, 33⟩, ⟨35, 69⟩] ∧
      (∀ st ∈ (parse source).program.statements, ∀ n : SyntaxNode, n.Within (.statement st) → n.Nested source) ∧
      (parse source).program.statements.Pairwise fun st next => st.span.stop ≤ next.span.start := by
  intro source
  have short : source.utf8ByteSize < UInt32.size := by decide
  obtain ⟨nested, apart⟩ := parse_nested short
  exact ⟨short, by decide +kernel, nested, apart⟩

end Monkey
