import Monkey.Proofs.TokenPlaces
import Monkey.Syntax.Nodes

namespace Monkey

variable {source : String} {i i' j j' k a b : Nat} {n : SyntaxNode} {ns ms : List SyntaxNode}

/-- The node takes the tokens from the one to the other, and it and all nodes below it are nested. -/
structure Covers (source : String) (a b : Nat) (n : SyntaxNode) : Prop where
  le : a ≤ b
  real : (tokenAt source a).kind ≠ .eof
  span : n.span = ⟨(tokenAt source a).span.start, (tokenAt source b).span.stop⟩
  nested : ∀ m : SyntaxNode, m.Within n → m.Nested source

/-- The nodes take tokens one after the other, none before the one and all before the other. -/
inductive NodeRow (source : String) : Nat → Nat → List SyntaxNode → Prop
  | nil {i j : Nat} : i ≤ j → NodeRow source i j []
  | cons {i a b j : Nat} {n : SyntaxNode} {ns : List SyntaxNode} :
      i ≤ a → Covers source a b n → NodeRow source (b + 1) j ns → NodeRow source i j (n :: ns)

namespace NodeRow

theorem le (row : NodeRow source i j ns) : i ≤ j := by
  induction row with
  | nil le => exact le
  | cons from_ covers _ ih =>
    have := covers.le
    omega

theorem mono (row : NodeRow source i j ns) (left : i' ≤ i) (right : j ≤ j') : NodeRow source i' j' ns := by
  induction row generalizing i' with
  | nil le => exact .nil (by omega)
  | cons from_ covers _ ih => exact .cons (by omega) covers (ih (Nat.le_refl _) right)

theorem one (from_ : i ≤ a) (covers : Covers source a b n) (ends : b < j) : NodeRow source i j [n] :=
  .cons from_ covers (.nil ends)

theorem append (row : NodeRow source i k ns) (others : NodeRow source k j ms) : NodeRow source i j (ns ++ ms) := by
  induction row with
  | nil le => exact others.mono le (Nat.le_refl _)
  | cons from_ covers _ ih => exact .cons from_ covers (ih others)

theorem exists_covers (row : NodeRow source i j [n]) : ∃ a b, i ≤ a ∧ Covers source a b n ∧ b < j := by
  cases row with
  | cons from_ covers rest => exact ⟨_, _, from_, covers, rest.le⟩

theorem exists_covers_of_mem (row : NodeRow source i j ns) (mem : n ∈ ns) :
    ∃ a b, i ≤ a ∧ Covers source a b n ∧ b < j := by
  induction row with
  | nil _ => cases mem
  | @cons i a b j m ns from_ covers rest ih =>
    have order := covers.le
    rcases List.mem_cons.1 mem with rfl | later
    · exact ⟨a, b, from_, covers, rest.le⟩
    · obtain ⟨a', b', from', covers', ends⟩ := ih later
      exact ⟨a', b', by omega, covers', ends⟩

theorem pairwise (short : source.utf8ByteSize < UInt32.size) (row : NodeRow source i j ns) :
    ns.Pairwise fun n m => n.span.stop ≤ m.span.start := by
  induction row with
  | nil _ => exact .nil
  | @cons i a b j m ns _ covers rest ih =>
    refine .cons (fun n mem => ?_) ih
    obtain ⟨a', b', from', covers', _⟩ := rest.exists_covers_of_mem mem
    rw [covers.span, covers'.span]
    exact stop_le_start short from'

end NodeRow

/-- A node whose children are a row within the tokens that its span is made of. -/
theorem covers_of_row (short : source.utf8ByteSize < UInt32.size) (le : a ≤ b)
    (real : (tokenAt source a).kind ≠ .eof)
    (span : n.span = ⟨(tokenAt source a).span.start, (tokenAt source b).span.stop⟩)
    (row : NodeRow source a (b + 1) n.children) : Covers source a b n := by
  refine ⟨le, real, span, fun m within => ?_⟩
  cases within with
  | under mem within =>
    obtain ⟨_, _, _, covers, _⟩ := row.exists_covers_of_mem mem
    exact covers.nested m within
  | self =>
    refine ⟨?_, ⟨_, tokenAt_mem real, by rw [span]⟩, ?_, fun child mem => ?_, row.pairwise short⟩
    · rw [span]
      exact Nat.lt_of_lt_of_le (start_lt_stop short real) (stop_mono short le)
    · rw [span]
      by_cases eof : (tokenAt source b).kind = .eof
      · exact .inr (congrArg Span.stop (span_of_eof short eof))
      · exact .inl ⟨_, tokenAt_mem eof, rfl⟩
    · obtain ⟨a', b', from_, covers, ends⟩ := row.exists_covers_of_mem mem
      rw [span, covers.span]
      exact ⟨start_mono short from_, stop_mono short (Nat.le_of_lt_succ ends)⟩

/-- A node without children that is made of one token. -/
theorem covers_of_token (short : source.utf8ByteSize < UInt32.size) (real : (tokenAt source a).kind ≠ .eof)
    (span : n.span = (tokenAt source a).span) (leaf : n.children = []) : Covers source a a n :=
  covers_of_row short (Nat.le_refl a) real span (leaf ▸ .nil (Nat.le_succ a))

/-- A node that goes from one token to another, with its children between them. -/
theorem row_of_merge (short : source.utf8ByteSize < UInt32.size) (le : a ≤ b)
    (real : (tokenAt source a).kind ≠ .eof) (span : n.span = (tokenAt source a).span.merge (tokenAt source b).span)
    (row : NodeRow source a (b + 1) n.children) : NodeRow source a (b + 1) [n] :=
  .one (Nat.le_refl a) (covers_of_row short le real (span.trans (merge_of_le short le le)) row) (Nat.lt_succ_self b)

/-- A node that goes on from where the first of its children starts to another token, which is behind that child. -/
theorem NodeRow.grow {first : SyntaxNode} (row : NodeRow source i k [first])
    (short : source.utf8ByteSize < UInt32.size) (behind : k ≤ a) (le : a ≤ b)
    (span : n.span = first.span.merge ⟨(tokenAt source a).span.start, (tokenAt source b).span.stop⟩)
    (children : n.children = first :: ns) (others : NodeRow source k (b + 1) ns) : NodeRow source i (b + 1) [n] := by
  obtain ⟨a', b', from_, covers, ends⟩ := row.exists_covers
  have order := covers.le
  refine .one from_ (covers_of_row short (by omega) covers.real ?_ ?_) (Nat.lt_succ_self b)
  · rw [span, covers.span]
    exact merge_of_le short (by omega) (by omega)
  · rw [children]
    exact .cons (Nat.le_refl a') covers (others.mono ends (Nat.le_refl _))

end Monkey
