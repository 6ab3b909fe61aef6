import Monkey.Store.Renamed

namespace Monkey

namespace Store

variable {s t : Store} {id next n : ScopeId} {first : Nat}

section Links

/-- A scope that is opened holds the scope around it and what its bindings hold. -/
theorem link_enter {outer : ScopeId} {bindings : Std.TreeMap String Value}
    (link : (s.enter (some outer) bindings).2.Link id next) :
    s.Link id next ∨ id = s.size ∧
      (next = outer ∨ ∃ (name : String) (v : Value), bindings[name]? = some v ∧ next ∈ v.scopes) := by
  rcases link with around | ⟨name, v, bound, inside⟩
  · rw [outer?_enter] at around
    split at around
    · next same => exact .inr ⟨same, .inl (Option.some.inj around).symm⟩
    · exact .inl (.inl around)
  · rw [bound?_enter] at bound
    split at bound
    · next same => exact .inr ⟨same, .inr ⟨name, v, bound, inside⟩⟩
    · exact .inl (.inr ⟨name, v, bound, inside⟩)

theorem link_bind {own : ScopeId} {name : String} {v : Value} (link : (s.bind own name v).Link id next) :
    s.Link id next ∨ next ∈ v.scopes := by
  rcases link with around | ⟨name', w, bound, inside⟩
  · rw [outer?_bind] at around
    exact .inl (.inl around)
  · rw [bound?_bind] at bound
    split at bound
    · cases bound
      exact .inr inside
    · exact .inl (.inr ⟨name', w, bound, inside⟩)

theorem link_capture {own : ScopeId} (link : (s.capture own).Link id next) : s.Link id next := by
  rcases link with around | ⟨name, v, bound, inside⟩
  · rw [outer?_capture] at around
    exact .inl around
  · rw [bound?_capture] at bound
    exact .inr ⟨name, v, bound, inside⟩

theorem link_clear (link : (s.clear n).Link id next) : s.Link id next := by
  rcases link with around | ⟨name, v, bound, inside⟩
  · rw [outer?_clear] at around
    exact .inl around
  · rw [bound?_clear] at bound
    split at bound
    · cases bound
    · exact .inr ⟨name, v, bound, inside⟩

end Links

section Agrees

variable {outer : Option ScopeId} {bindings : Std.TreeMap String Value}

/-- What both stores open is the same in both. -/
theorem agreesAt_enter (size : s.size = t.size) :
    (s.enter outer bindings).2.AgreesAt (t.enter outer bindings).2 s.size := by
  refine ⟨?_, fun name => ?_⟩
  · rw [outer?_enter, outer?_enter, if_pos rfl, if_pos size]
  · rw [bound?_enter, bound?_enter, if_pos rfl, if_pos size]

theorem AgreesAt.enter (h : s.AgreesAt t id) (size : s.size = t.size) (old : id < s.size) :
    (s.enter outer bindings).2.AgreesAt (t.enter outer bindings).2 id := by
  have ne : id ≠ s.size := Nat.ne_of_lt old
  have ne' : id ≠ t.size := size ▸ ne
  refine ⟨?_, fun name => ?_⟩
  · rw [outer?_enter, outer?_enter, if_neg ne, if_neg ne', h.outer]
  · rw [bound?_enter, bound?_enter, if_neg ne, if_neg ne', h.bound]

theorem AgreesAt.bind (h : s.AgreesAt t id) (size : s.size = t.size) (own : ScopeId) (name : String) (v : Value) :
    (s.bind own name v).AgreesAt (t.bind own name v) id := by
  refine ⟨?_, fun name' => ?_⟩
  · rw [outer?_bind, outer?_bind, h.outer]
  · rw [bound?_bind, bound?_bind, h.bound, size]

theorem AgreesAt.capture (h : s.AgreesAt t id) (own : ScopeId) : (s.capture own).AgreesAt (t.capture own) id := by
  refine ⟨?_, fun name => ?_⟩
  · rw [outer?_capture, outer?_capture, h.outer]
  · rw [bound?_capture, bound?_capture, h.bound]

theorem AgreesAt.clear (h : s.AgreesAt t id) (other : id ≠ n) : (s.clear n).AgreesAt t id := by
  refine ⟨?_, fun name => ?_⟩
  · rw [outer?_clear, h.outer]
  · rw [bound?_clear, if_neg other, h.bound]

end Agrees

/-- What is reachable from the scope is the same in the other store. -/
def Intact (s t : Store) (id : ScopeId) : Prop := ∀ other, s.Reachable id other → s.AgreesAt t other

section Intact

/-- The stores agree on what is reachable from a scope of a class that links do not lead out of and that they agree
on. -/
theorem intact_of_closed {R : ScopeId → Prop} (closed : ∀ {a b : ScopeId}, R a → s.Link a b → R b)
    (agree : ∀ {a : ScopeId}, R a → s.AgreesAt t a) (mem : R id) : s.Intact t id := by
  intro other reachable
  refine agree ?_
  induction reachable with
  | refl => exact mem
  | tail _ link ih => exact closed ih link

theorem intact_self (s : Store) (id : ScopeId) : s.Intact s id := fun _ _ => ⟨rfl, fun _ => rfl⟩

theorem Intact.agrees (h : s.Intact t id) : s.AgreesAt t id := h id .refl

theorem Intact.of_link (h : s.Intact t id) (link : s.Link id next) : s.Intact t next :=
  fun other reachable => h other (.head link reachable)

/-- A name means the same where nothing that is reachable has changed. -/
theorem Intact.lookup?_eq (h : s.Intact t id) (name : String) : s.lookup? name id = t.lookup? name id := by
  induction id using Nat.strongRecOn with
  | ind id ih =>
    rw [lookup?, lookup?, ← h.agrees.bound name, ← h.agrees.outer]
    cases s.bound? id name with
    | some v => rfl
    | none =>
      cases around : s.outer? id with
      | none => rfl
      | some outer =>
        by_cases older : outer < id
        · simp only [older, dif_pos]
          exact ih outer older (h.of_link (.inl around))
        · simp only [older, dif_neg, not_false_iff]

end Intact

/-- Every scope from `first` on that some scope holds is noted as captured. -/
def Noted (s : Store) (first : Nat) : Prop :=
  ∀ {id next : ScopeId}, s.Link id next → first ≤ next → s.isCaptured next = true

/-- In a store nothing that is opened later is held yet. -/
theorem Sound.noted (sound : s.Sound) : s.Noted s.size :=
  fun link young => absurd (sound.link_lt link) (Nat.not_lt.2 young)

/-- The stores have opened the same scopes. In the first there are no loose ends, and what is held is noted. -/
structure Beside (first : Nat) (s t : Store) : Prop where
  size : s.size = t.size
  sound : s.Sound
  opened : first ≤ s.size
  noted : s.Noted first

/-- The scope is there, and what is reachable from it is the same in both stores. -/
structure Usable (s t : Store) (id : ScopeId) : Prop where
  lt : id < s.size
  intact : s.Intact t id

/-- The scope is usable, and one that values may hold: if it is a later one, it is noted as captured. -/
structure Live (first : Nat) (s t : Store) (id : ScopeId) : Prop extends Usable s t id where
  captured : first ≤ id → s.isCaptured id = true

/-- From `s` and `t` the stores `s'` and `t'` have come, with every usable scope usable and every note kept. -/
structure Keeps (s t s' t' : Store) : Prop where
  usable : ∀ {id : ScopeId}, s.Usable t id → s'.Usable t' id
  captured : ∀ {id : ScopeId}, s.isCaptured id = true → s'.isCaptured id = true

section Keeps

variable {s' t' s'' t'' : Store}

theorem Keeps.refl (s t : Store) : s.Keeps t s t := ⟨id, id⟩

theorem Keeps.trans (h : s.Keeps t s' t') (h' : s'.Keeps t' s'' t'') : s.Keeps t s'' t'' :=
  ⟨fun usable => h'.usable (h.usable usable), fun noted => h'.captured (h.captured noted)⟩

theorem Live.of_keeps (h : s.Live first t id) (keeps : s.Keeps t s' t') : s'.Live first t' id :=
  ⟨keeps.usable h.toUsable, fun young => keeps.captured (h.captured young)⟩

end Keeps

theorem Usable.of_link (h : s.Usable t id) (sound : s.Sound) (link : s.Link id next) : s.Usable t next :=
  ⟨sound.link_lt link, h.intact.of_link link⟩

namespace Beside

/-- Both open a scope with the same bindings inside a scope that values may hold. The new one is usable. -/
theorem enter (h : Beside first s t) {outer : ScopeId} {bindings : Std.TreeMap String Value}
    (around : s.Live first t outer)
    (each : ∀ (name : String) (v : Value), bindings[name]? = some v → ∀ c ∈ v.scopes, s.Live first t c) :
    Beside first (s.enter (some outer) bindings).2 (t.enter (some outer) bindings).2 ∧
      Keeps s t (s.enter (some outer) bindings).2 (t.enter (some outer) bindings).2 ∧
      Usable (s.enter (some outer) bindings).2 (t.enter (some outer) bindings).2 s.size := by
  -- What the new scope holds is live.
  have held {next : ScopeId}
      (h : next = outer ∨ ∃ (name : String) (v : Value), bindings[name]? = some v ∧ next ∈ v.scopes) :
      s.Live first t next := by
    rcases h with rfl | ⟨name, v, bound, inside⟩
    · exact around
    · exact each name v bound next inside
  have closed {a b : ScopeId} (mem : s.Usable t a ∨ a = s.size)
      (link : (s.enter (some outer) bindings).2.Link a b) : s.Usable t b ∨ b = s.size := by
    refine .inl ?_
    rcases link_enter link with old | ⟨_, new⟩
    · rcases mem with usable | rfl
      · exact usable.of_link h.sound old
      · exact absurd (lt_size_of_link old) (Nat.lt_irrefl _)
    · exact (held new).toUsable
  have agree {a : ScopeId} (mem : s.Usable t a ∨ a = s.size) :
      (s.enter (some outer) bindings).2.AgreesAt (t.enter (some outer) bindings).2 a := by
    rcases mem with usable | rfl
    · exact usable.intact.agrees.enter h.size usable.lt
    · exact agreesAt_enter h.size
  have usable {a : ScopeId} (mem : s.Usable t a ∨ a = s.size) :
      Usable (s.enter (some outer) bindings).2 (t.enter (some outer) bindings).2 a := by
    refine ⟨?_, intact_of_closed closed agree mem⟩
    rw [size_enter]
    rcases mem with old | rfl
    · exact Nat.lt_succ_of_lt old.lt
    · exact Nat.lt_succ_self _
  refine ⟨⟨?_, ?_, ?_, fun {a b} link young => ?_⟩, ⟨fun old => usable (.inl old), fun noted => ?_⟩, usable (.inr rfl)⟩
  · rw [size_enter, size_enter, h.size]
  · refine h.sound.enter (fun id mem => ?_) fun name v bound c inside => (each name v bound c inside).lt
    cases mem
    exact around.lt
  · rw [size_enter]
    exact Nat.le_succ_of_le h.opened
  · rw [isCaptured_enter]
    rcases link_enter link with old | ⟨_, new⟩
    · exact h.noted old young
    · exact (held new).captured young
  · rw [isCaptured_enter]
    exact noted

/-- Both bind the name to the same value, over scopes that values may hold. -/
theorem bind (h : Beside first s t) (own : ScopeId) (name : String) {v : Value}
    (value : ∀ c ∈ v.scopes, s.Live first t c) :
    Beside first (s.bind own name v) (t.bind own name v) ∧ Keeps s t (s.bind own name v) (t.bind own name v) := by
  have closed {a b : ScopeId} (usable : s.Usable t a) (link : (s.bind own name v).Link a b) : s.Usable t b := by
    rcases link_bind link with old | new
    · exact usable.of_link h.sound old
    · exact (value b new).toUsable
  have agree {a : ScopeId} (usable : s.Usable t a) : (s.bind own name v).AgreesAt (t.bind own name v) a :=
    usable.intact.agrees.bind h.size own name v
  refine ⟨⟨?_, ?_, ?_, fun {a b} link young => ?_⟩, fun {a} usable => ⟨?_, intact_of_closed closed agree usable⟩, ?_⟩
  · rw [size_bind, size_bind, h.size]
  · exact h.sound.bind fun c inside => (value c inside).lt
  · rw [size_bind]
    exact h.opened
  · rw [isCaptured_bind]
    rcases link_bind link with old | new
    · exact h.noted old young
    · exact (value b new).captured young
  · rw [size_bind]
    exact usable.lt
  · intro a noted
    rw [isCaptured_bind]
    exact noted

/-- Both note that a closure over the scope is made. If the scope is usable, values may hold it from now on. -/
theorem capture (h : Beside first s t) (own : ScopeId) :
    Beside first (s.capture own) (t.capture own) ∧ Keeps s t (s.capture own) (t.capture own) ∧
      (s.Usable t own → Live first (s.capture own) (t.capture own) own) := by
  have closed {a b : ScopeId} (usable : s.Usable t a) (link : (s.capture own).Link a b) : s.Usable t b :=
    usable.of_link h.sound (link_capture link)
  have agree {a : ScopeId} (usable : s.Usable t a) : (s.capture own).AgreesAt (t.capture own) a :=
    usable.intact.agrees.capture own
  have noted {a : ScopeId} (noted : s.isCaptured a = true) : (s.capture own).isCaptured a = true := by
    rw [isCaptured_capture]
    split
    · rfl
    · exact noted
  have usable {a : ScopeId} (usable : s.Usable t a) : Usable (s.capture own) (t.capture own) a := by
    refine ⟨?_, intact_of_closed closed agree usable⟩
    rw [size_capture]
    exact usable.lt
  refine ⟨⟨?_, h.sound.capture, ?_, fun link young => ?_⟩, ⟨usable, noted⟩, fun here => ⟨usable here, fun _ => ?_⟩⟩
  · rw [size_capture, size_capture, h.size]
  · rw [size_capture]
    exact h.opened
  · exact noted (h.noted (link_capture link) young)
  · rw [isCaptured_capture, if_pos ⟨rfl, here.lt⟩]

/-- In the first store a scope is cleared. What is usable and does not reach it stays so. -/
theorem clear (h : Beside first s t) (n : ScopeId) :
    Beside first (s.clear n) t ∧ (∀ {id : ScopeId}, s.Usable t id → ¬ s.Reachable id n → Usable (s.clear n) t id) ∧
      ∀ {id : ScopeId}, s.isCaptured id = true → (s.clear n).isCaptured id = true := by
  have closed {a b : ScopeId} (mem : s.Usable t a ∧ ¬ s.Reachable a n) (link : (s.clear n).Link a b) :
      s.Usable t b ∧ ¬ s.Reachable b n :=
    ⟨mem.1.of_link h.sound (link_clear link), fun reachable => mem.2 (.head (link_clear link) reachable)⟩
  have agree {a : ScopeId} (mem : s.Usable t a ∧ ¬ s.Reachable a n) : (s.clear n).AgreesAt t a := by
    have other : a ≠ n := fun same => mem.2 (same ▸ .refl)
    exact mem.1.intact.agrees.clear other
  refine ⟨⟨?_, h.sound.clear, ?_, fun link young => ?_⟩, fun usable apart => ⟨?_, ?_⟩, fun noted => ?_⟩
  · rw [size_clear, h.size]
  · rw [size_clear]
    exact h.opened
  · rw [isCaptured_clear]
    exact h.noted (link_clear link) young
  · rw [size_clear]
    exact usable.lt
  · exact intact_of_closed closed agree ⟨usable, apart⟩
  · rw [isCaptured_clear]
    exact noted

end Beside

/-- A sound store stands beside itself, and all its scopes are usable. -/
theorem Sound.beside (sound : s.Sound) : Beside s.size s s := ⟨rfl, sound, Nat.le_refl _, sound.noted⟩

/-- No scope below `n` holds one from `n` on. -/
def Confined (s : Store) (n : ScopeId) : Prop := ∀ {id next : ScopeId}, id < n → s.Link id next → next < n

section Confined

theorem Confined.not_reachable (confined : s.Confined n) (old : id < n) : ¬ s.Reachable id n := by
  have stays {other : ScopeId} (reachable : s.Reachable id other) : other < n := by
    induction reachable with
    | refl => exact old
    | tail _ link ih => exact confined ih link
  exact fun reachable => Nat.lt_irrefl _ (stays reachable)

/-- Older scopes may be passed by when one looks for `n`. -/
theorem Confined.leadsTo (confined : s.Confined n) (reachable : s.Reachable id n) : s.LeadsTo n id := by
  induction reachable using Relation.ReflTransGen.head_induction_on with
  | refl => exact .here
  | @head a b link later ih =>
    rcases Nat.lt_trichotomy a n with older | rfl | younger
    · exact absurd (.head link later) (confined.not_reachable older)
    · exact .here
    · exact .link younger link ih

theorem LeadsTo.reachable (leads : s.LeadsTo n id) : s.Reachable id n := by
  induction leads with
  | here => exact .refl
  | link _ link _ ih => exact .head link ih

/-- The search that passes older scopes by finds a confined scope exactly when it is reachable. -/
theorem Confined.reaches_iff (confined : s.Confined n) (sound : s.Sound) {v : Value} (within : v.Within s.size) :
    s.reaches v n = true ↔ ∃ c ∈ v.scopes, s.Reachable c n := by
  rw [Store.reaches_iff sound within]
  constructor
  · rintro ⟨c, mem, leads⟩
    exact ⟨c, mem, leads.reachable⟩
  · rintro ⟨c, mem, reachable⟩
    exact ⟨c, mem, confined.leadsTo reachable⟩

end Confined

/-- A scope that is not noted as captured is reachable from itself alone. -/
theorem Noted.eq_of_reachable (noted : s.Noted first) (young : first ≤ n) (not : s.isCaptured n = false)
    (reachable : s.Reachable id n) : id = n := by
  cases reachable with
  | refl => rfl
  | tail _ link =>
    rw [noted link young] at not
    cases not

end Store

end Monkey
