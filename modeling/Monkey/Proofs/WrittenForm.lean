import Monkey.Proofs.GrammarComplete
import Monkey.Proofs.WrittenExpressions

namespace Monkey

open Grammar

section Statements

variable {e : Expr} {b : Block} {span : Span}

/-- What can be said of the written form of a statement, with what keeps it from the next one and without. -/
structure Statement.Spelled (s : Statement) : Prop where
  separate : SpellsClosed .statement (s.render ++ if s.needsSemicolon then ";" else "").toList s
  last : ∀ (l : Lexer) (cs : List Char), l.rest = s.render.toList ++ cs → Apart cs →
    ∃ l' : Lexer, l'.rest = cs ∧
      ((∀ t ∈ l'.tokens.head?, ¬ CarriesOn t.kind) → Reads .statement s l.tokens l'.tokens)

theorem Statement.spelled_of_closed {s : Statement} (semicolon : s.needsSemicolon = false)
    (h : SpellsClosed .statement s.render.toList s) : s.Spelled where
  separate := by simpa [semicolon] using h
  last := by
    intro l cs rest _
    obtain ⟨l', rest', reads⟩ := h l cs rest
    exact ⟨l', rest', fun _ => reads⟩

theorem Statement.spelled_let {id : Identifier} (identifier : isIdentifier id.name)
    (value : Spells (.expression .call) e.render.toList e) : (Statement.bind id e span).Spelled := by
  refine Statement.spelled_of_closed rfl fun l cs rest => ?_
  have text : l.rest = "let".toList ++ ' ' :: (id.name.toList ++ ' ' :: '=' :: ' ' ::
      (e.render.toList ++ ';' :: cs)) := by
    rw [rest]
    simp [Statement.render]
  obtain ⟨t, l₁, letWord, _, rest₁, tokens⟩ := Lexer.scans_keyword .letWord (by decide) text (apart_blank _)
  obtain ⟨l₂, rest₂, blank₂⟩ := Lexer.exists_tokens_of_blank rest₁
  obtain ⟨t₂, l₃, ident, literal, rest₃, tokens₂⟩ := scans_name rest₂ identifier (apart_blank _)
  obtain ⟨l₄, rest₄, blank₄⟩ := Lexer.exists_tokens_of_blank rest₃
  obtain ⟨t₄, l₅, assign, _, rest₅, tokens₄⟩ := Lexer.scans_sign rest₄ rfl (by simp)
  obtain ⟨l₆, rest₆, blank₆⟩ := Lexer.exists_tokens_of_blank rest₅
  obtain ⟨l₇, rest₇, reads⟩ := value l₆ _ rest₆ (apart_sign _ rfl)
  obtain ⟨t₇, l₈, semicolon, _, rest₈, tokens₇⟩ := Lexer.scans_sign rest₇ rfl (by simp)
  refine ⟨l₈, rest₈, ?_⟩
  have named : id = ⟨t₂.literal, id.span⟩ := by rw [literal, String.ofList_toList]
  rw [tokens₇] at reads
  rw [tokens, blank₂, tokens₂, blank₄, tokens₄, blank₆, named]
  exact .bind id.span span letWord ident assign (reads.loosen (Nat.zero_le _)) (.semicolon semicolon)

theorem Statement.spelled_return (value : Spells (.expression .call) e.render.toList e) :
    (Statement.ret (some e) span).Spelled := by
  refine Statement.spelled_of_closed rfl fun l cs rest => ?_
  have text : l.rest = "return".toList ++ ' ' :: (e.render.toList ++ ';' :: cs) := by
    rw [rest]
    simp [Statement.render]
  obtain ⟨t, l₁, returnWord, _, rest₁, tokens⟩ := Lexer.scans_keyword .returnWord (by decide) text (apart_blank _)
  obtain ⟨l₂, rest₂, blank⟩ := Lexer.exists_tokens_of_blank rest₁
  obtain ⟨l₃, rest₃, reads⟩ := value l₂ _ rest₂ (apart_sign _ rfl)
  obtain ⟨t₃, l₄, semicolon, _, rest₄, tokens₃⟩ := Lexer.scans_sign rest₃ rfl (by simp)
  refine ⟨l₄, rest₄, ?_⟩
  rw [tokens₃] at reads
  rw [tokens, blank]
  exact .ret span returnWord (reads.loosen (Nat.zero_le _)) (.semicolon semicolon)

theorem Statement.spelled_bareReturn : (Statement.ret none span).Spelled := by
  refine Statement.spelled_of_closed rfl fun l cs rest => ?_
  have text : l.rest = "return".toList ++ ';' :: cs := by
    rw [rest]
    simp [Statement.render]
  obtain ⟨t, l₁, returnWord, _, rest₁, tokens⟩ := Lexer.scans_keyword .returnWord (by decide) text (apart_sign _ rfl)
  obtain ⟨t₁, l₂, semicolon, _, rest₂, tokens₁⟩ := Lexer.scans_sign rest₁ rfl (by simp)
  refine ⟨l₂, rest₂, ?_⟩
  rw [tokens, tokens₁]
  exact .bareRet span returnWord semicolon

theorem Statement.spelled_expr (value : Spells (.expression .call) e.render.toList e) :
    (Statement.expr e).Spelled where
  separate := by
    intro l cs rest
    have text : l.rest = e.render.toList ++ ';' :: cs := by
      rw [rest]
      simp [Statement.render, Statement.needsSemicolon]
    obtain ⟨l₁, rest₁, reads⟩ := value l _ text (apart_sign _ rfl)
    obtain ⟨t₁, l₂, semicolon, _, rest₂, tokens⟩ := Lexer.scans_sign rest₁ rfl (by simp)
    rw [tokens] at reads
    exact ⟨l₂, rest₂, .expr (reads.loosen (Nat.zero_le _)) (.semicolon semicolon)⟩
  last := by
    intro l cs rest apart
    obtain ⟨l', rest', reads⟩ := value l cs rest apart
    exact ⟨l', rest', fun carries => .expr (reads.loosen (Nat.zero_le _)) (.nothing carries)⟩

theorem spells_statements {ss : List Statement} (each : ∀ s ∈ ss, s.Spelled) (l : Lexer) (cs : List Char)
    (rest : l.rest = (renderStatements ss).toList ++ cs) (apart : Apart cs) :
    ∃ l' : Lexer, l'.rest = cs ∧
      ((∀ t ∈ l'.tokens.head?, ¬ CarriesOn t.kind) → Reads .statements ss l.tokens l'.tokens) := by
  induction ss generalizing l with
  | nil => exact ⟨l, by simpa [renderStatements] using rest, fun _ => .noStatements⟩
  | cons s ss ih =>
    cases ss with
    | nil =>
      obtain ⟨l', rest', reads⟩ := (each s (.head _)).last l cs rest apart
      exact ⟨l', rest', fun carries => .moreStatements (reads carries) .noStatements⟩
    | cons s' ss =>
      have text : l.rest = (s.render ++ if s.needsSemicolon then ";" else "").toList ++
          ' ' :: ((renderStatements (s' :: ss)).toList ++ cs) := by
        rw [rest, renderStatements]
        · split <;> simp
        · exact List.cons_ne_nil s' ss
      obtain ⟨l₁, rest₁, readsFirst⟩ := (each s (.head _)).separate l _ text
      obtain ⟨l₂, rest₂, blank⟩ := Lexer.exists_tokens_of_blank rest₁
      obtain ⟨l₃, rest₃, reads⟩ := ih (fun s mem => each s (.tail _ mem)) l₂ rest₂
      rw [blank] at readsFirst
      exact ⟨l₃, rest₃, fun carries => .moreStatements readsFirst (reads carries)⟩

theorem spells_block {ss : List Statement} (each : ∀ s ∈ ss, s.Spelled) :
    SpellsClosed .block (Block.mk ss span).render.toList (.mk ss span) := by
  intro l cs rest
  cases ss with
  | nil =>
    have text : l.rest = '\x7b' :: ' ' :: '\x7d' :: cs := by
      rw [rest]
      simp [Block.render]
    obtain ⟨t, l₁, lbrace, _, rest₁, tokens⟩ := Lexer.scans_sign text rfl (by simp)
    obtain ⟨l₂, rest₂, blank⟩ := Lexer.exists_tokens_of_blank rest₁
    obtain ⟨t₂, l₃, rbrace, _, rest₃, tokens₂⟩ := Lexer.scans_sign rest₂ rfl (by simp)
    refine ⟨l₃, rest₃, ?_⟩
    rw [tokens, blank, tokens₂]
    exact .block span lbrace .noStatements rbrace
  | cons s ss =>
    have text : l.rest = '\x7b' :: ' ' :: ((renderStatements (s :: ss)).toList ++ ' ' :: '\x7d' :: cs) := by
      rw [rest]
      simp [Block.render]
    obtain ⟨t, l₁, lbrace, _, rest₁, tokens⟩ := Lexer.scans_sign text rfl (by simp)
    obtain ⟨l₂, rest₂, blank⟩ := Lexer.exists_tokens_of_blank rest₁
    obtain ⟨l₃, rest₃, reads⟩ := spells_statements each l₂ _ rest₂ (apart_blank _)
    obtain ⟨l₄, rest₄, blank₃⟩ := Lexer.exists_tokens_of_blank rest₃
    obtain ⟨t₄, l₅, rbrace, _, rest₅, tokens₄⟩ := Lexer.scans_sign rest₄ rfl (by simp)
    refine ⟨l₅, rest₅, ?_⟩
    rw [blank₃, tokens₄] at reads
    rw [tokens, blank]
    refine .block span lbrace (reads fun t' next => ?_) rbrace
    cases next
    rw [carriesOn_iff, rbrace]
    exact nofun

end Statements

mutual

theorem Expr.spells : (e : Expr) → e.isWellFormed → Spells (.expression .call) e.render.toList e
  | .name _, wf => spells_name (by simpa [Expr.isWellFormed] using wf)
  | .int _ _, wf => spells_int (by simpa [Expr.isWellFormed] using wf)
  | .str s _, wf => by
    have plain : '"' ∉ s.toList := by simpa [Expr.isWellFormed] using wf
    simpa [Expr.render] using spells_str plain
  | .bool true _, _ => by simpa [Expr.render] using spells_true
  | .bool false _, _ => by simpa [Expr.render] using spells_false
  | .unary op e span, wf => by
    have operand := e.spells (by simpa [Expr.isWellFormed] using wf)
    exact (encloses_unary operand).spells
  | .binary op l r span, wf => by
    simp only [Expr.isWellFormed, Bool.and_eq_true] at wf
    exact (encloses_binary (l.spells wf.1) (r.spells wf.2)).spells
  | .cond c t e span, wf => by
    simp only [Expr.isWellFormed, Bool.and_eq_true] at wf
    have condition := encloses_condition (c.spells wf.1.1) (c.encloses wf.1.1)
    exact spells_cond condition (t.spells wf.1.2) (spells_alternative (alternativeSpells e wf.2))
  | .function ps b place, wf => by
    simp only [Expr.isWellFormed, Bool.and_eq_true, List.all_eq_true] at wf
    exact spells_function wf.1 (b.spells wf.2)
  | .call f as span, wf => by
    simp only [Expr.isWellFormed, Bool.and_eq_true] at wf
    exact spells_call (f.spells wf.1) (listSpells as wf.2)
  | .array es span, wf => spells_array (listSpells es (by simpa [Expr.isWellFormed] using wf))
  | .index b i span, wf => by
    simp only [Expr.isWellFormed, Bool.and_eq_true] at wf
    exact (encloses_index (b.spells wf.1) (i.spells wf.2)).spells
  | .hash ps span, wf => spells_hash (pairsSpell ps (by simpa [Expr.isWellFormed] using wf))

/-- What is written with parentheses of its own is enclosed by them. -/
theorem Expr.encloses : (e : Expr) → e.isWellFormed → e.isParenthesized → Encloses e.render.toList e
  | .unary op e span, wf, _ => encloses_unary (e.spells (by simpa [Expr.isWellFormed] using wf))
  | .binary op l r span, wf, _ => by
    simp only [Expr.isWellFormed, Bool.and_eq_true] at wf
    exact encloses_binary (l.spells wf.1) (r.spells wf.2)
  | .index b i span, wf, _ => by
    simp only [Expr.isWellFormed, Bool.and_eq_true] at wf
    exact encloses_index (b.spells wf.1) (i.spells wf.2)

theorem alternativeSpells : (otherwise : Option Block) → alternativeIsWellFormed otherwise →
    ∀ b ∈ otherwise, SpellsClosed .block b.render.toList b
  | none, _ => fun _ mem => nomatch mem
  | some b, wf => by
    have block := b.spells (by simpa [alternativeIsWellFormed] using wf)
    intro b' mem
    cases mem
    exact block

theorem listSpells : (es : List Expr) → listIsWellFormed es →
    ∀ e ∈ es, Spells (.expression .lowest) e.render.toList e
  | [], _ => fun _ mem => nomatch mem
  | e :: es, wf => by
    simp only [listIsWellFormed, Bool.and_eq_true] at wf
    have first := (e.spells wf.1).lowest
    have others := listSpells es wf.2
    exact List.forall_mem_cons.2 ⟨first, others⟩

theorem pairsSpell : (ps : List (Expr × Expr)) → pairsAreWellFormed ps →
    ∀ p ∈ ps, Spells .pair (renderPair p).toList p
  | [], _ => fun _ mem => nomatch mem
  | (k, v) :: ps, wf => by
    simp only [pairsAreWellFormed, Bool.and_eq_true] at wf
    have first := spells_pair (p := (k, v)) (k.spells wf.1.1).lowest (v.spells wf.1.2).lowest
    have others := pairsSpell ps wf.2
    exact List.forall_mem_cons.2 ⟨first, others⟩

theorem Statement.spelled : (s : Statement) → s.isWellFormed → s.Spelled
  | .bind id e span, wf => by
    simp only [Statement.isWellFormed, Bool.and_eq_true] at wf
    exact Statement.spelled_let wf.1 (e.spells wf.2)
  | .ret none span, _ => Statement.spelled_bareReturn
  | .ret (some e) span, wf => Statement.spelled_return (e.spells (by simpa [Statement.isWellFormed] using wf))
  | .expr e, wf => Statement.spelled_expr (e.spells (by simpa [Statement.isWellFormed] using wf))

theorem statementsSpelled : (ss : List Statement) → statementsAreWellFormed ss → ∀ s ∈ ss, s.Spelled
  | [], _ => fun _ mem => nomatch mem
  | s :: ss, wf => by
    simp only [statementsAreWellFormed, Bool.and_eq_true] at wf
    have first := s.spelled wf.1
    have others := statementsSpelled ss wf.2
    exact List.forall_mem_cons.2 ⟨first, others⟩

theorem Block.spells : (b : Block) → b.isWellFormed → SpellsClosed .block b.render.toList b
  | .mk ss _, wf => spells_block (statementsSpelled ss (by simpa [Block.isWellFormed] using wf))

end

/-- The written form of a well-formed tree is read without errors, and as the tree up to spans. -/
theorem parse_render {p : Program} (wf : p.isWellFormed) :
    (parse p.render).errors = [] ∧ (parse p.render).program.eraseSpans = p.eraseSpans := by
  have whole : (Lexer.ofString p.render).rest = (renderStatements p.statements).toList ++ [] :=
    (List.append_nil _).symm
  obtain ⟨l', rest, reads⟩ := spells_statements (statementsSpelled p.statements wf) _ [] whole apart_nil
  have ends : l'.tokens = [] := by
    refine Lexer.tokens_of_eof (Lexer.next_kind_eq_eof_iff.2 ?_)
    rw [rest]
    rfl
  rw [ends] at reads
  exact parse_of_reads (reads fun t next => nomatch next)

theorem parse_render_calledCondition :
    let first : Expr := .index (.name ⟨"x", .origin⟩) (.int 0 .origin) .origin
    let condition : Expr :=
      .cond (.unary .neg first .origin) (.mk [.ret none .origin] .origin) (some (.mk [] .origin)) .origin
    let pick : Expr :=
      .function [⟨"a", .origin⟩, ⟨"b", .origin⟩]
        (.mk [.expr (.hash [(.int 1 .origin, .str "s" .origin)] .origin)] .origin) .origin
    let p : Program := ⟨[.expr (.call condition [pick] .origin), .bind ⟨"f", .origin⟩ (.bool true .origin) .origin]⟩
    p.isWellFormed ∧ (parse p.render).errors = [] ∧ (parse p.render).program.eraseSpans = p.eraseSpans := by
  intro first condition pick p
  have wf : p.isWellFormed := by decide +kernel
  exact ⟨wf, parse_render wf⟩

end Monkey
