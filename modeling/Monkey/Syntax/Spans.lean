import Monkey.Syntax.Render

namespace Monkey

/-- The span moved on by a number of bytes. -/
def Span.shift (bytes : Nat) (s : Span) : Span := ⟨s.start + bytes, s.stop + bytes⟩

/-- The place with `f` applied to its span and `g` to its number. -/
def Place.map (f : Span → Span) (g : Nat → Nat) (p : Place) : Place := ⟨f p.span, g p.number⟩

def Identifier.mapSpan (f : Span → Span) (id : Identifier) : Identifier := ⟨id.name, f id.span⟩

mutual

/-- The expression with `f` applied to every span in it and `g` to the number of every function literal. -/
def Expr.mapSpans (f : Span → Span) (g : Nat → Nat) : Expr → Expr
  | .name id => .name (id.mapSpan f)
  | .int n s => .int n (f s)
  | .str t s => .str t (f s)
  | .bool b s => .bool b (f s)
  | .unary op e s => .unary op (e.mapSpans f g) (f s)
  | .binary op l r s => .binary op (l.mapSpans f g) (r.mapSpans f g) (f s)
  | .cond c t e s => .cond (c.mapSpans f g) (t.mapSpans f g) (mapAlternative f g e) (f s)
  | .function ps b p => .function (ps.map (·.mapSpan f)) (b.mapSpans f g) (p.map f g)
  | .call e as s => .call (e.mapSpans f g) (mapList f g as) (f s)
  | .array es s => .array (mapList f g es) (f s)
  | .index b i s => .index (b.mapSpans f g) (i.mapSpans f g) (f s)
  | .hash ps s => .hash (mapPairs f g ps) (f s)

def mapAlternative (f : Span → Span) (g : Nat → Nat) : Option Block → Option Block
  | none => none
  | some b => some (b.mapSpans f g)

def mapList (f : Span → Span) (g : Nat → Nat) : List Expr → List Expr
  | [] => []
  | e :: es => e.mapSpans f g :: mapList f g es

def mapPairs (f : Span → Span) (g : Nat → Nat) : List (Expr × Expr) → List (Expr × Expr)
  | [] => []
  | (k, v) :: ps => (k.mapSpans f g, v.mapSpans f g) :: mapPairs f g ps

/-- The statement with `f` applied to every span in it and `g` to the number of every function literal. -/
def Statement.mapSpans (f : Span → Span) (g : Nat → Nat) : Statement → Statement
  | .bind id e s => .bind (id.mapSpan f) (e.mapSpans f g) (f s)
  | .ret none s => .ret none (f s)
  | .ret (some e) s => .ret (some (e.mapSpans f g)) (f s)
  | .expr e => .expr (e.mapSpans f g)

def mapStatements (f : Span → Span) (g : Nat → Nat) : List Statement → List Statement
  | [] => []
  | s :: ss => s.mapSpans f g :: mapStatements f g ss

/-- The block with `f` applied to every span in it and `g` to the number of every function literal. -/
def Block.mapSpans (f : Span → Span) (g : Nat → Nat) : Block → Block
  | .mk ss s => .mk (mapStatements f g ss) (f s)

end

theorem mapList_eq_map (f : Span → Span) (g : Nat → Nat) (es : List Expr) :
    mapList f g es = es.map (·.mapSpans f g) := by
  induction es with
  | nil => rfl
  | cons e es ih => rw [mapList, ih, List.map_cons]

theorem mapPairs_eq_map (f : Span → Span) (g : Nat → Nat) (ps : List (Expr × Expr)) :
    mapPairs f g ps = ps.map fun p => (p.1.mapSpans f g, p.2.mapSpans f g) := by
  induction ps with
  | nil => rfl
  | cons p ps ih => rw [mapPairs, ih, List.map_cons]

theorem mapAlternative_eq_map (f : Span → Span) (g : Nat → Nat) (b : Option Block) :
    mapAlternative f g b = b.map (·.mapSpans f g) := by
  cases b <;> rfl

theorem mapStatements_eq_map (f : Span → Span) (g : Nat → Nat) (ss : List Statement) :
    mapStatements f g ss = ss.map (·.mapSpans f g) := by
  induction ss with
  | nil => rfl
  | cons s ss ih => rw [mapStatements, ih, List.map_cons]

mutual

theorem Expr.mapSpans_id : (e : Expr) → e.mapSpans id id = e
  | .name _ | .int .. | .str .. | .bool .. => rfl
  | .unary _ e _ => by rw [Expr.mapSpans, e.mapSpans_id]; rfl
  | .binary _ l r _ => by rw [Expr.mapSpans, l.mapSpans_id, r.mapSpans_id]; rfl
  | .cond c t e _ => by rw [Expr.mapSpans, c.mapSpans_id, t.mapSpans_id, mapAlternative_id e]; rfl
  | .function ps b _ => by
    have same : ps.map (·.mapSpan id) = ps := List.map_id' ps
    rw [Expr.mapSpans, b.mapSpans_id, same]
    rfl
  | .call e as _ => by rw [Expr.mapSpans, e.mapSpans_id, mapList_id as]; rfl
  | .array es _ => by rw [Expr.mapSpans, mapList_id es]; rfl
  | .index b i _ => by rw [Expr.mapSpans, b.mapSpans_id, i.mapSpans_id]; rfl
  | .hash ps _ => by rw [Expr.mapSpans, mapPairs_id ps]; rfl

theorem mapAlternative_id : (b : Option Block) → mapAlternative id id b = b
  | none => rfl
  | some b => congrArg some b.mapSpans_id

theorem mapList_id : (es : List Expr) → mapList id id es = es
  | [] => rfl
  | e :: es => by rw [mapList, e.mapSpans_id, mapList_id es]

theorem mapPairs_id : (ps : List (Expr × Expr)) → mapPairs id id ps = ps
  | [] => rfl
  | (k, v) :: ps => by rw [mapPairs, k.mapSpans_id, v.mapSpans_id, mapPairs_id ps]

theorem Statement.mapSpans_id : (s : Statement) → s.mapSpans id id = s
  | .bind _ e _ => by rw [Statement.mapSpans, e.mapSpans_id]; rfl
  | .ret none _ => rfl
  | .ret (some e) _ => by rw [Statement.mapSpans, e.mapSpans_id]; rfl
  | .expr e => congrArg Statement.expr e.mapSpans_id

theorem mapStatements_id : (ss : List Statement) → mapStatements id id ss = ss
  | [] => rfl
  | s :: ss => by rw [mapStatements, s.mapSpans_id, mapStatements_id ss]

theorem Block.mapSpans_id : (b : Block) → b.mapSpans id id = b
  | .mk ss _ => by rw [Block.mapSpans, mapStatements_id ss]; rfl

end

mutual

/-- To apply functions to all spans and numbers and then others is to apply the compositions. -/
theorem Expr.mapSpans_mapSpans (f f' : Span → Span) (g g' : Nat → Nat) :
    (e : Expr) → (e.mapSpans f g).mapSpans f' g' = e.mapSpans (f' ∘ f) (g' ∘ g)
  | .name _ | .int .. | .str .. | .bool .. => rfl
  | .unary _ e _ => by simp only [Expr.mapSpans, e.mapSpans_mapSpans, Function.comp_apply]
  | .binary _ l r _ => by simp only [Expr.mapSpans, l.mapSpans_mapSpans, r.mapSpans_mapSpans, Function.comp_apply]
  | .cond c t e _ => by
    simp only [Expr.mapSpans, c.mapSpans_mapSpans, t.mapSpans_mapSpans, mapAlternative_mapAlternative f f' g g' e,
      Function.comp_apply]
  | .function ps b _ => by
    simp only [Expr.mapSpans, b.mapSpans_mapSpans, List.map_map]
    rfl
  | .call e as _ => by
    simp only [Expr.mapSpans, e.mapSpans_mapSpans, mapList_mapList f f' g g' as, Function.comp_apply]
  | .array es _ => by simp only [Expr.mapSpans, mapList_mapList f f' g g' es, Function.comp_apply]
  | .index b i _ => by simp only [Expr.mapSpans, b.mapSpans_mapSpans, i.mapSpans_mapSpans, Function.comp_apply]
  | .hash ps _ => by simp only [Expr.mapSpans, mapPairs_mapPairs f f' g g' ps, Function.comp_apply]

theorem mapAlternative_mapAlternative (f f' : Span → Span) (g g' : Nat → Nat) :
    (b : Option Block) → mapAlternative f' g' (mapAlternative f g b) = mapAlternative (f' ∘ f) (g' ∘ g) b
  | none => rfl
  | some b => congrArg some (b.mapSpans_mapSpans f f' g g')

theorem mapList_mapList (f f' : Span → Span) (g g' : Nat → Nat) :
    (es : List Expr) → mapList f' g' (mapList f g es) = mapList (f' ∘ f) (g' ∘ g) es
  | [] => rfl
  | e :: es => by simp only [mapList, e.mapSpans_mapSpans, mapList_mapList f f' g g' es]

theorem mapPairs_mapPairs (f f' : Span → Span) (g g' : Nat → Nat) :
    (ps : List (Expr × Expr)) → mapPairs f' g' (mapPairs f g ps) = mapPairs (f' ∘ f) (g' ∘ g) ps
  | [] => rfl
  | (k, v) :: ps => by
    simp only [mapPairs, k.mapSpans_mapSpans, v.mapSpans_mapSpans, mapPairs_mapPairs f f' g g' ps]

theorem Statement.mapSpans_mapSpans (f f' : Span → Span) (g g' : Nat → Nat) :
    (s : Statement) → (s.mapSpans f g).mapSpans f' g' = s.mapSpans (f' ∘ f) (g' ∘ g)
  | .bind _ e _ => by
    simp only [Statement.mapSpans, e.mapSpans_mapSpans, Function.comp_apply]
    rfl
  | .ret none _ => rfl
  | .ret (some e) _ => by simp only [Statement.mapSpans, e.mapSpans_mapSpans, Function.comp_apply]
  | .expr e => congrArg Statement.expr (e.mapSpans_mapSpans f f' g g')

theorem mapStatements_mapStatements (f f' : Span → Span) (g g' : Nat → Nat) :
    (ss : List Statement) → mapStatements f' g' (mapStatements f g ss) = mapStatements (f' ∘ f) (g' ∘ g) ss
  | [] => rfl
  | s :: ss => by simp only [mapStatements, s.mapSpans_mapSpans, mapStatements_mapStatements f f' g g' ss]

theorem Block.mapSpans_mapSpans (f f' : Span → Span) (g g' : Nat → Nat) :
    (b : Block) → (b.mapSpans f g).mapSpans f' g' = b.mapSpans (f' ∘ f) (g' ∘ g)
  | .mk ss _ => by simp only [Block.mapSpans, mapStatements_mapStatements f f' g g' ss, Function.comp_apply]

end

namespace Program

def mapSpans (f : Span → Span) (g : Nat → Nat) (p : Program) : Program := ⟨mapStatements f g p.statements⟩

/-- The program as if it stood in no source text. -/
def eraseSpans (p : Program) : Program := p.mapSpans (fun _ => .origin) fun _ => 0

/-- The program as if its source text stood so many bytes and so many function literals further on. -/
def shift (bytes literals : Nat) (p : Program) : Program := p.mapSpans (Span.shift bytes) (· + literals)

theorem statements_eraseSpans (p : Program) :
    p.eraseSpans.statements = p.statements.map (·.mapSpans (fun _ => .origin) fun _ => 0) :=
  mapStatements_eq_map _ _ _

theorem eraseSpans_shift (bytes literals : Nat) (p : Program) : (p.shift bytes literals).eraseSpans = p.eraseSpans :=
  congrArg Program.mk (mapStatements_mapStatements _ _ _ _ p.statements)

end Program

@[simp] theorem renderNames_mapSpan (f : Span → Span) (ids : List Identifier) :
    renderNames (ids.map (·.mapSpan f)) = renderNames ids := by
  simp [renderNames, Identifier.mapSpan, Function.comp_def]

@[simp] theorem Expr.isParenthesized_mapSpans (f : Span → Span) (g : Nat → Nat) (e : Expr) :
    (e.mapSpans f g).isParenthesized = e.isParenthesized := by
  cases e <;> rfl

@[simp] theorem Statement.needsSemicolon_mapSpans (f : Span → Span) (g : Nat → Nat) (s : Statement) :
    (s.mapSpans f g).needsSemicolon = s.needsSemicolon := by
  rcases s with _ | (_ | _) | _ <;> rfl

mutual

@[simp] theorem Expr.render_mapSpans (f : Span → Span) (g : Nat → Nat) :
    (e : Expr) → (e.mapSpans f g).render = e.render
  | .name _ | .int .. | .str .. | .bool true _ | .bool false _ => rfl
  | .unary _ e _ => by simp [Expr.mapSpans, Expr.render, e.render_mapSpans f g]
  | .binary _ l r _ => by simp [Expr.mapSpans, Expr.render, l.render_mapSpans f g, r.render_mapSpans f g]
  | .cond c t e _ => by
    simp [Expr.mapSpans, Expr.render, c.render_mapSpans f g, t.render_mapSpans f g,
      renderAlternative_mapAlternative f g e]
  | .function _ b _ => by simp [Expr.mapSpans, Expr.render, b.render_mapSpans f g]
  | .call e as _ => by simp [Expr.mapSpans, Expr.render, e.render_mapSpans f g, renderList_mapList f g as]
  | .array es _ => by simp [Expr.mapSpans, Expr.render, renderList_mapList f g es]
  | .index b i _ => by simp [Expr.mapSpans, Expr.render, b.render_mapSpans f g, i.render_mapSpans f g]
  | .hash ps _ => by simp [Expr.mapSpans, Expr.render, renderPairs_mapPairs f g ps]

@[simp] theorem renderAlternative_mapAlternative (f : Span → Span) (g : Nat → Nat) :
    (b : Option Block) → renderAlternative (mapAlternative f g b) = renderAlternative b
  | none => rfl
  | some b => by simp [mapAlternative, renderAlternative, b.render_mapSpans f g]

@[simp] theorem renderList_mapList (f : Span → Span) (g : Nat → Nat) :
    (es : List Expr) → renderList (mapList f g es) = renderList es
  | [] => rfl
  | e :: es => by simp [mapList, renderList, e.render_mapSpans f g, renderListRest_mapList f g es]

@[simp] theorem renderListRest_mapList (f : Span → Span) (g : Nat → Nat) :
    (es : List Expr) → renderListRest (mapList f g es) = renderListRest es
  | [] => rfl
  | e :: es => by simp [mapList, renderListRest, e.render_mapSpans f g, renderListRest_mapList f g es]

@[simp] theorem renderPairs_mapPairs (f : Span → Span) (g : Nat → Nat) :
    (ps : List (Expr × Expr)) → renderPairs (mapPairs f g ps) = renderPairs ps
  | [] => rfl
  | (k, v) :: ps => by
    simp [mapPairs, renderPairs, k.render_mapSpans f g, v.render_mapSpans f g, renderPairsRest_mapPairs f g ps]

@[simp] theorem renderPairsRest_mapPairs (f : Span → Span) (g : Nat → Nat) :
    (ps : List (Expr × Expr)) → renderPairsRest (mapPairs f g ps) = renderPairsRest ps
  | [] => rfl
  | (k, v) :: ps => by
    simp [mapPairs, renderPairsRest, k.render_mapSpans f g, v.render_mapSpans f g, renderPairsRest_mapPairs f g ps]

@[simp] theorem Statement.render_mapSpans (f : Span → Span) (g : Nat → Nat) :
    (s : Statement) → (s.mapSpans f g).render = s.render
  | .bind _ e _ => by simp [Statement.mapSpans, Statement.render, e.render_mapSpans f g, Identifier.mapSpan]
  | .ret none _ => rfl
  | .ret (some e) _ => by simp [Statement.mapSpans, Statement.render, e.render_mapSpans f g]
  | .expr e => by simp [Statement.mapSpans, Statement.render, e.render_mapSpans f g]

@[simp] theorem renderStatements_mapStatements (f : Span → Span) (g : Nat → Nat) :
    (ss : List Statement) → renderStatements (mapStatements f g ss) = renderStatements ss
  | [] => rfl
  | [s] => by simp [mapStatements, renderStatements, s.render_mapSpans f g]
  | s :: t :: ss => by
    have rest := renderStatements_mapStatements f g (t :: ss)
    simp only [mapStatements] at rest
    simp [mapStatements, renderStatements, s.render_mapSpans f g, rest]

@[simp] theorem Block.render_mapSpans (f : Span → Span) (g : Nat → Nat) :
    (b : Block) → (b.mapSpans f g).render = b.render
  | .mk [] _ => rfl
  | .mk (s :: ss) _ => by
    have body := renderStatements_mapStatements f g (s :: ss)
    simp only [mapStatements] at body
    simp [Block.mapSpans, mapStatements, Block.render, body]

end

/-- The written form does not depend on spans. -/
@[simp] theorem Program.render_mapSpans (f : Span → Span) (g : Nat → Nat) (p : Program) :
    (p.mapSpans f g).render = p.render :=
  renderStatements_mapStatements f g p.statements

end Monkey
