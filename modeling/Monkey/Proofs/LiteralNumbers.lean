import Monkey.Proofs.Discipline
import Monkey.Proofs.ParserTotal
import Monkey.Syntax.Nodes

namespace Monkey

/-- The function literals in the nodes, in the order in which they end, have ascending numbers from the one on and
below the other. -/
inductive NumberRow : Nat → Nat → List SyntaxNode → Prop
  | nil {lo hi : Nat} : lo ≤ hi → NumberRow lo hi []
  | cons {lo inner outer hi : Nat} {n : SyntaxNode} {ns : List SyntaxNode} :
      NumberRow lo inner n.children → inner ≤ outer → (∀ k, n.number? = some k → inner ≤ k ∧ k < outer) →
      NumberRow outer hi ns → NumberRow lo hi (n :: ns)

namespace NumberRow

variable {lo lo' mid hi hi' k : Nat} {n m m' : SyntaxNode} {ns ms : List SyntaxNode}

theorem le (row : NumberRow lo hi ns) : lo ≤ hi := by
  induction row with
  | nil le => exact le
  | cons _ order _ _ below after => omega

theorem mono (row : NumberRow lo hi ns) (left : lo' ≤ lo) (right : hi ≤ hi') : NumberRow lo' hi' ns := by
  induction row generalizing lo' hi' with
  | nil le => exact .nil (by omega)
  | cons _ order own _ below after => exact .cons (below left (Nat.le_refl _)) order own (after (Nat.le_refl _) right)

theorem append (row : NumberRow lo mid ns) (others : NumberRow mid hi ms) : NumberRow lo hi (ns ++ ms) := by
  induction row with
  | nil le => exact others.mono le (Nat.le_refl _)
  | cons below order own _ _ after => exact .cons below order own (after others)

/-- A node that is no function literal adds nothing to what is below it. -/
theorem one (row : NumberRow lo hi n.children) (other : n.number? = none) : NumberRow lo hi [n] := by
  refine .cons row (Nat.le_refl hi) (fun k own => ?_) (.nil (Nat.le_refl hi))
  rw [other] at own
  cases own

/-- The numbers are in the range. -/
theorem bounds (row : NumberRow lo hi ns) (mem : n ∈ ns) (within : m.Within n) (own : m.number? = some k) :
    lo ≤ k ∧ k < hi := by
  induction row generalizing n with
  | nil => cases mem
  | @cons lo inner outer hi head ns children order ownHead rest below after =>
    have first := children.le
    have last := rest.le
    rcases List.mem_cons.1 mem with rfl | mem
    · cases within with
      | self => have := ownHead k own; omega
      | under child within => have := below child within; omega
    · have := after mem within
      omega

/-- There is one node with a number. -/
theorem eq_of_number (row : NumberRow lo hi ns) (found : ∃ n ∈ ns, m.Within n) (found' : ∃ n ∈ ns, m'.Within n)
    (own : m.number? = some k) (own' : m'.number? = some k) : m = m' := by
  induction row with
  | nil =>
    obtain ⟨_, mem, _⟩ := found
    cases mem
  | @cons lo inner outer hi head ns children order ownHead rest below after =>
    -- In the head a number is below those of the rest, and below the head it is below that of the head.
    have inHead {l : SyntaxNode} (within : l.Within head) (number : l.number? = some k) : k < outer := by
      cases within with
      | self => exact (ownHead k number).2
      | under child within =>
        have := children.bounds child within number
        omega
    obtain ⟨n, mem, within⟩ := found
    obtain ⟨n', mem', within'⟩ := found'
    rcases List.mem_cons.1 mem with rfl | later
    · rcases List.mem_cons.1 mem' with rfl | later'
      · cases within with
        | self =>
          cases within' with
          | self => rfl
          | under child within' =>
            have := children.bounds child within' own'
            have := ownHead k own
            omega
        | under child within =>
          cases within' with
          | self =>
            have := children.bounds child within own
            have := ownHead k own'
            omega
          | under child' within' => exact below ⟨_, child, within⟩ ⟨_, child', within'⟩
      · have := inHead within own
        have := rest.bounds later' within' own'
        omega
    · rcases List.mem_cons.1 mem' with rfl | later'
      · have := inHead within' own'
        have := rest.bounds later within own
        omega
      · exact after ⟨n, later, within⟩ ⟨n', later', within'⟩

end NumberRow

namespace Parser

/-- The nodes that the goal yields are numbered from `lo` on and below `hi`. -/
def Counted : (goal : Goal) → (lo hi : Nat) → goal.Result → Prop
  | .statement, lo, hi, st => NumberRow lo hi [.statement st]
  | .statements _, lo, hi, ss => NumberRow lo hi (ss.map .statement)
  | .expression _, lo, hi, e => NumberRow lo hi [.expression e]
  | .continued _ left, lo, hi, e => ∀ first, NumberRow first lo [.expression left] → NumberRow first hi [.expression e]
  | .moreExpressions, lo, hi, es => NumberRow lo hi (es.flatMap fun e => [.expression e])
  | .morePairs, lo, hi, ps => NumberRow lo hi (ps.flatMap fun p => [.expression p.1, .expression p.2])
  | .moreParameters, lo, hi, ids => NumberRow lo hi (ids.flatMap fun id => [.identifier id])

/-- The number of the next literal is no lower than in `s`, and a value is good. -/
def Numbers {α : Type} (s : State) (good : α → State → Prop) (r : Except GivenUp α) (t : State) : Prop :=
  s.literals ≤ t.literals ∧ ∀ a, r = .ok a → good a t

/-- Numbers are given out in ascending order. -/
def counting : Discipline (fun s : State => s) State.advance State.countLiteral where
  Calls _ _ := True
  Kept goal s _ := Numbers s fun a t => Counted goal s.literals t.literals a
  Holds _ := True
  Moves s _ t := s.literals ≤ t.literals
  GivesUp s _ t := s.literals ≤ t.literals
  lawful.state_onward _ := rfl
  lawful.state_numbered _ := rfl
  lawful.holds_onward _ := trivial
  lawful.holds_numbered _ := trivial
  lawful.refl _ := Nat.le_refl _
  lawful.trans := Nat.le_trans
  lawful.givesUp := Nat.le_trans
  lawful.moves_onward _ := Nat.le_refl _
  lawful.moves_numbered _ := Nat.le_succ _
  lawful.fail _ _ := Nat.le_refl _

/-- The production, started in `s`, comes to a good value if to any, if all goals count their literals. -/
abbrev Counts {α : Type} (m : Parser α) (s : State) (good : α → State → Prop) : Prop := counting.Has m s good

section Productions

variable {α : Type} {s t : State}

theorem ends_iff_numbers {good : α → State → Prop} {trace : Trace} {r : Except GivenUp α} :
    counting.Ends s good trace r t ↔ Numbers s good r t :=
  Discipline.ends_iff (and_iff_right trivial) .rfl

theorem literals_le (h : counting.Leads s t) : s.literals ≤ t.literals := h.moves.elim fun _ le => le

theorem counts_call (goal : Goal) :
    Counts (Routine.call goal) s fun a t => Counted goal s.literals t.literals a :=
  .call (fun _ => trivial) fun _ _ _ _ kept => ends_iff_numbers.2 kept

theorem counts_expression : Counts expression s fun e u => NumberRow s.literals u.literals [.expression e] :=
  counts_call (.expression .lowest)

theorem counts_moreItems {item : Parser α} {more : Parser (List α)} {nodes : α → List SyntaxNode}
    (items : ∀ t, Counts item t fun a u => NumberRow t.literals u.literals (nodes a))
    (others : ∀ t, Counts more t fun as u => NumberRow t.literals u.literals (as.flatMap nodes)) :
    Counts (moreItems item more) s fun as u => NumberRow s.literals u.literals (as.flatMap nodes) := by
  refine .moreItems (fun _ => .nil (Nat.le_refl _)) (fun _ => items _) fun first t _ _ row => ?_
  exact (others t).mono fun _ _ _ rows => row.append rows

theorem counts_bracketed {closing : TokenKind} {item : Parser α} {more : Parser (List α)} {nodes : α → List SyntaxNode}
    (items : ∀ t, Counts item t fun a u => NumberRow t.literals u.literals (nodes a))
    (others : ∀ t, Counts more t fun as u => NumberRow t.literals u.literals (as.flatMap nodes)) :
    Counts (bracketed closing item more) s fun as u => NumberRow s.literals u.literals (as.flatMap nodes) := by
  refine .bracketed (fun _ => .nil (Nat.le_refl _)) (items _) fun first t _ row => ?_
  exact (others t).mono fun _ _ _ rows _ => row.append rows

theorem counts_expressionList {closing : TokenKind} :
    Counts (expressionList closing) s fun es u => NumberRow s.literals u.literals (es.map .expression) :=
  (counts_bracketed (fun _ => counts_expression) fun _ => counts_call .moreExpressions).mono
    fun _ _ _ row => List.map_eq_flatMap ▸ row

theorem counts_pair : Counts pair s fun p u => NumberRow s.literals u.literals [.expression p.1, .expression p.2] := by
  unfold pair
  refine .bind counts_expression fun key t _ keyRow => .expectPeek fun _ => .advance ?_
  exact .bind counts_expression fun value u _ valueRow => .pure (keyRow.append valueRow)

theorem counts_parameter : Counts parameter s fun id u => NumberRow s.literals u.literals [.identifier id] := by
  unfold parameter
  refine .current ?_
  split
  · exact .pure (.one (.nil (Nat.le_refl _)) rfl)
  · exact .fail .current (.unexpected .ident)

theorem counts_block : Counts block s fun b u => NumberRow s.literals u.literals [.block b] := by
  unfold block
  refine .current (.advance (.bind (counts_call (.statements true)) fun ss t _ row => ?_))
  exact .spanFrom (.pure (.one row rfl))

theorem counts_integer : Counts integer s fun e u => NumberRow s.literals u.literals [.expression e] := by
  unfold integer
  refine .current ?_
  dsimp only
  split
  · exact .pure (.one (.nil (Nat.le_refl _)) rfl)
  · exact .fail .current .tooLarge

theorem counts_unary {op : UnaryOp} :
    Counts (unary op) s fun e u => NumberRow s.literals u.literals [.expression e] := by
  unfold unary
  refine .current (.advance (.bind (counts_call (.expression .unary)) fun e t _ row => ?_))
  exact .spanFrom (.pure (.one row rfl))

theorem counts_grouped : Counts grouped s fun e u => NumberRow s.literals u.literals [.expression e] := by
  unfold grouped
  exact .advance (.bind counts_expression fun e t _ row => .expectPeek fun _ => .pure row)

theorem counts_alternative : Counts alternative s fun b u => NumberRow s.literals u.literals (b.toList.map .block) := by
  unfold alternative
  refine .peekKind ?_
  split
  · refine .advance (.expectPeek fun _ => ?_)
    exact .bind counts_block fun b t _ row => .pure row
  · exact .pure (.nil (Nat.le_refl _))

theorem counts_conditional : Counts conditional s fun e u => NumberRow s.literals u.literals [.expression e] := by
  unfold conditional
  refine .current (.expectPeek fun _ => .advance (.bind counts_expression fun condition t _ conditionRow => ?_))
  refine .expectPeek fun _ => .expectPeek fun _ => .bind counts_block fun consequence u _ blockRow => ?_
  refine .bind counts_alternative fun alternative v _ alternativeRow => .spanFrom (.pure (.one ?_ rfl))
  exact conditionRow.append (blockRow.append alternativeRow)

/-- A literal gets its number when all of it has been read. -/
theorem counts_function : Counts function s fun e u => NumberRow s.literals u.literals [.expression e] := by
  have parameters (t : State) : Counts (bracketed .rparen parameter moreParameters) t fun ids u =>
      NumberRow t.literals u.literals (ids.flatMap fun id => [.identifier id]) :=
    counts_bracketed (fun _ => counts_parameter) fun _ => counts_call .moreParameters
  unfold function
  refine .current (.expectPeek fun _ => .bind (parameters _) fun ids t _ parametersRow => ?_)
  refine .expectPeek fun _ => .bind counts_block fun body u _ bodyRow => .spanFrom (.freshLiteral (.pure ?_))
  rw [← List.map_eq_flatMap] at parametersRow
  refine .cons (parametersRow.append bodyRow) (Nat.le_succ u.literals) (fun number own => ?_) (.nil (Nat.le_refl _))
  cases own
  exact ⟨Nat.le_refl _, Nat.lt_succ_self _⟩

theorem counts_array : Counts array s fun e u => NumberRow s.literals u.literals [.expression e] := by
  unfold array
  exact .current (.bind counts_expressionList fun elements t _ row => .spanFrom (.pure (.one row rfl)))

theorem counts_hash : Counts hash s fun e u => NumberRow s.literals u.literals [.expression e] := by
  have pairs : Counts (bracketed .rbrace pair morePairs) s fun ps u =>
      NumberRow s.literals u.literals (ps.flatMap fun p => [.expression p.1, .expression p.2]) :=
    counts_bracketed (fun _ => counts_pair) fun _ => counts_call .morePairs
  unfold hash
  exact .current (.bind pairs fun ps t _ row => .spanFrom (.pure (.one row rfl)))

theorem counts_operand : Counts operand s fun e u => NumberRow s.literals u.literals [.expression e] := by
  unfold operand
  refine .current ?_
  have leaf : NumberRow s.literals s.literals [] := .nil (Nat.le_refl _)
  split
  · exact .pure (.one (.one leaf rfl) rfl)
  · exact counts_integer
  · exact .pure (.one leaf rfl)
  · exact .pure (.one leaf rfl)
  · exact .pure (.one leaf rfl)
  · exact counts_unary
  · exact counts_unary
  · exact counts_grouped
  · exact counts_conditional
  · exact counts_function
  · exact counts_array
  · exact counts_hash
  · exact .fail .current .noExpression

theorem counts_extend {left : Expr} {c : Continuation} : Counts (extend left c) s fun e u =>
    ∀ first, NumberRow first s.literals [.expression left] → NumberRow first u.literals [.expression e] := by
  unfold extend
  cases c with
  | binary op =>
    refine .advance (.bind (counts_call (.expression op.precedence)) fun right t _ rightRow => ?_)
    exact .pure fun first leftRow => .one (leftRow.append rightRow) rfl
  | call =>
    refine .bind counts_expressionList fun arguments t _ row => .spanFrom (.pure fun first leftRow => ?_)
    exact .one (leftRow.append row) rfl
  | index =>
    refine .advance (.bind counts_expression fun i t _ row => .expectPeek fun _ => .spanFrom (.pure ?_))
    exact fun first leftRow => .one (leftRow.append row) rfl

theorem counts_letStatement : Counts letStatement s fun st u => NumberRow s.literals u.literals [.statement st] := by
  unfold letStatement
  refine .current (.expectPeek fun _ => .current (.expectPeek fun _ => .advance ?_))
  refine .bind counts_expression fun value t _ row => .skipSemicolon fun u _ _ leads => .spanFrom (.pure (.one ?_ rfl))
  have name (id : Identifier) : NumberRow s.literals s.literals [.identifier id] := .one (.nil (Nat.le_refl _)) rfl
  exact (name _).append (row.mono (Nat.le_refl _) (literals_le leads))

theorem counts_returnStatement :
    Counts returnStatement s fun st u => NumberRow s.literals u.literals [.statement st] := by
  have value : Counts returnValue s fun value u => NumberRow s.literals u.literals (value.toList.map .expression) := by
    unfold returnValue
    refine .peekKind ?_
    split
    case h_4 => exact .advance (.bind counts_expression fun e t _ row => .pure row)
    all_goals exact .pure (.nil (Nat.le_refl _))
  unfold returnStatement
  refine .current (.bind value fun value t _ row => .skipSemicolon fun u _ _ leads => .spanFrom (.pure (.one ?_ rfl)))
  exact row.mono (Nat.le_refl _) (literals_le leads)

/-- Numbers of statements that are given up are not used again. -/
theorem counts_statements {inBlock : Bool} :
    Counts (produce (.statements inBlock)) s fun ss u => Counted (.statements inBlock) s.literals u.literals ss := by
  unfold produce
  refine .current ?_
  dsimp only
  split
  · exact .pure (.nil (Nat.le_refl _))
  · refine .attempt (fun _ => trivial) fun _ inside read t met => ?_
    refine ⟨t.advance, rfl, trivial, met.1, ?_⟩
    refine .bind (counts_call (.statements inBlock)) fun rest u _ restRow => ?_
    cases read with
    | ok st => exact .pure (NumberRow.append (met.2 st rfl) restRow)
    | error _ => exact .pure (NumberRow.mono restRow met.1 (Nat.le_refl _))

/-- Every production numbers its nodes. -/
theorem produce_counts (goal : Goal) :
    Counts (produce goal) s fun a t => Counted goal s.literals t.literals a := by
  cases goal with
  | statement =>
    refine .current ?_
    split
    · exact counts_letStatement
    · exact counts_returnStatement
    · refine .bind counts_expression fun e t _ row => .skipSemicolon fun u _ _ leads => .pure (.one ?_ rfl)
      exact row.mono (Nat.le_refl _) (literals_le leads)
  | statements inBlock => exact counts_statements
  | expression above =>
    refine .bind counts_operand fun left t _ leftRow => ?_
    exact (counts_call (.continued above left)).mono fun e u _ grows => grows s.literals leftRow
  | continued above left =>
    refine .peekKind ?_
    split
    · split
      · refine .advance (.bind counts_extend fun e t _ grows => ?_)
        refine (counts_call (.continued above e)).mono fun _ _ _ grows' first leftRow => ?_
        exact grows' first (grows first leftRow)
      · exact .pure fun first leftRow => leftRow
    · exact .pure fun first leftRow => leftRow
  | moreExpressions => exact counts_moreItems (fun _ => counts_expression) fun _ => counts_call .moreExpressions
  | morePairs => exact counts_moreItems (fun _ => counts_pair) fun _ => counts_call .morePairs
  | moreParameters => exact counts_moreItems (fun _ => counts_parameter) fun _ => counts_call .moreParameters

/-- Every goal keeps what is known of its calls. -/
theorem keeps_counting (goal : Goal) (s : State) (_ : counting.Calls goal s) :
    (produce goal s).Charts counting.Calls counting.Kept (counting.Kept goal s) :=
  (produce_counts goal trivial).mono fun _ _ _ ends => ends_iff_numbers.1 ends

end Productions

end Parser

open Monkey.Parser in
/-- No two function literals of a text have the same number. -/
theorem numbered_parse (source : String) : (parse source).program.Numbered := by
  obtain ⟨ss, t, returns, parsed⟩ := exists_returns_parse source
  obtain ⟨trace, run⟩ := returns.exists_traces
  have start : Counts (statements false) (State.start source) fun ss t => Counted (.statements false) 0 t.literals ss :=
    counts_call (.statements false)
  have counted := ends_iff_numbers.1 (run.charts keeps_counting (start trivial))
  have row : NumberRow 0 t.literals (ss.map .statement) := counted.2 ss rfl
  have inRow {n : SyntaxNode} (found : (parse source).program.Contains n) : ∃ m ∈ ss.map .statement, n.Within m := by
    obtain ⟨st, mem, within⟩ := found
    rw [parsed] at mem
    exact ⟨_, List.mem_map_of_mem mem, within⟩
  exact fun n m k found found' => row.eq_of_number (inRow found) (inRow found')

end Monkey
