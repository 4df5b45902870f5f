import PathRouting.Config.Layer
import PathRouting.Proofs.Config.Assignment
import PathRouting.Proofs.Config.Merging

/-!
# Settings in which nothing is shared

As long as no document shows a mapping in several places, settings are trees. A change in place is
then the change of a value, and the table of shared mappings plays no part.
-/
namespace PathRouting.Config

namespace Item

variable {x : Item} {v : Value} {items : List Item} {vs : List Value} {es src : Mapping Item}
  {ws : Mapping Value} {key : Value} {shared : SharedTable}

/-! ## Trees -/

mutual

@[simp] theorem tree?_ofValue (v : Value) : tree? (ofValue v) = some v := by
  cases v with
  | mapping es => exact congrArg (Option.map Value.mapping) (entryTrees?_ofEntries es)
  | _ => rfl

@[simp] theorem entryTrees?_ofEntries : ∀ es : List (Value × Value),
    entryTrees? (ofEntries es) = some es
  | [] => rfl
  | (k, v) :: es => by simp [ofEntries, entryTrees?, tree?_ofValue v, entryTrees?_ofEntries es]

end

theorem trees?_cons : trees? (x :: items) = some vs ↔
    ∃ v rest, tree? x = some v ∧ trees? items = some rest ∧ vs = v :: rest := by
  rw [trees?, Option.bind_eq_some_iff]
  simp only [Option.map_eq_some_iff, exists_and_left, eq_comm (a := vs)]

theorem entryTrees?_cons : entryTrees? ((key, x) :: es) = some ws ↔
    ∃ v rest, tree? x = some v ∧ entryTrees? es = some rest ∧ ws = (key, v) :: rest := by
  rw [entryTrees?, Option.bind_eq_some_iff]
  simp only [Option.map_eq_some_iff, exists_and_left, eq_comm (a := ws)]

theorem tree?_mapping (h : entryTrees? es = some ws) : tree? (.mapping es) = some (.mapping ws) :=
  congrArg (Option.map Value.mapping) h

theorem tree?_cases (h : tree? x = some v) : (x = .plain v ∧ v.isMapping = false) ∨
    (∃ items vs, x = .list items ∧ v = .list vs ∧ trees? items = some vs) ∨
    ∃ es ws, x = .mapping es ∧ v = .mapping ws ∧ entryTrees? es = some ws := by
  cases x with
  | plain w =>
    rw [tree?] at h
    split at h
    · cases h
    · obtain rfl := Option.some.inj h
      exact .inl ⟨rfl, Bool.eq_false_of_not_eq_true ‹_›⟩
  | list items =>
    obtain ⟨vs, hvs, rfl⟩ := Option.map_eq_some_iff.mp h
    exact .inr (.inl ⟨items, vs, rfl, rfl, hvs⟩)
  | mapping es =>
    obtain ⟨ws, hws, rfl⟩ := Option.map_eq_some_iff.mp h
    exact .inr (.inr ⟨es, ws, rfl, rfl, hws⟩)
  | shared n => cases h

mutual

theorem value_of_tree (cell : Nat → Mapping Value) : ∀ {x : Item} {v : Value},
    tree? x = some v → value cell x = v
  | .plain w, v, h => by
    obtain ⟨he, -⟩ | ⟨_, _, he, -⟩ | ⟨_, _, he, -⟩ := tree?_cases h <;> cases he
    rfl
  | .list items, v, h => by
    obtain ⟨vs, hvs, rfl⟩ := Option.map_eq_some_iff.mp h
    exact congrArg Value.list (values_of_trees cell hvs)
  | .mapping es, v, h => by
    obtain ⟨ws, hws, rfl⟩ := Option.map_eq_some_iff.mp h
    exact congrArg Value.mapping (entryValues_of_trees cell hws)

theorem values_of_trees (cell : Nat → Mapping Value) : ∀ {items : List Item} {vs : List Value},
    trees? items = some vs → values cell items = vs
  | [], _, h => Option.some.inj h
  | _ :: _, _, h => by
    obtain ⟨v, rest, hx, hrest, rfl⟩ := trees?_cons.mp h
    rw [values, value_of_tree cell hx, values_of_trees cell hrest]

theorem entryValues_of_trees (cell : Nat → Mapping Value) : ∀ {es : List (Value × Item)}
    {ws : Mapping Value}, entryTrees? es = some ws → entryValues cell es = ws
  | [], _, h => Option.some.inj h
  | (_, _) :: _, _, h => by
    obtain ⟨v, rest, hx, hrest, rfl⟩ := entryTrees?_cons.mp h
    rw [entryValues, value_of_tree cell hx, entryValues_of_trees cell hrest]

end

mutual

/-- There are no numbers to raise in a tree. -/
theorem raise_of_tree (n : Nat) : ∀ {x : Item} {v : Value}, tree? x = some v → raise n x = x
  | .plain _, _, _ => rfl
  | .list items, v, h => by
    obtain ⟨vs, hvs, rfl⟩ := Option.map_eq_some_iff.mp h
    exact congrArg Item.list (raiseAll_of_trees n hvs)
  | .mapping es, v, h => by
    obtain ⟨ws, hws, rfl⟩ := Option.map_eq_some_iff.mp h
    exact congrArg Item.mapping (raiseEntries_of_trees n hws)

theorem raiseAll_of_trees (n : Nat) : ∀ {items : List Item} {vs : List Value},
    trees? items = some vs → raiseAll n items = items
  | [], _, _ => rfl
  | _ :: _, _, h => by
    obtain ⟨v, rest, hx, hrest, rfl⟩ := trees?_cons.mp h
    rw [raiseAll, raise_of_tree n hx, raiseAll_of_trees n hrest]

theorem raiseEntries_of_trees (n : Nat) : ∀ {es : List (Value × Item)} {ws : Mapping Value},
    entryTrees? es = some ws → raiseEntries n es = es
  | [], _, _ => rfl
  | (_, _) :: _, _, h => by
    obtain ⟨v, rest, hx, hrest, rfl⟩ := entryTrees?_cons.mp h
    rw [raiseEntries, raise_of_tree n hx, raiseEntries_of_trees n hrest]

end

/-! ## Entries -/

theorem get?_of_trees (h : entryTrees? es = some ws) (key : Value) :
    Option.Rel (fun x v => tree? x = some v) (Mapping.get? es key) (Mapping.get? ws key) := by
  induction es generalizing ws with
  | nil =>
    obtain rfl := Option.some.inj h
    exact .none
  | cons e es ih =>
    obtain ⟨v, rest, hx, hrest, rfl⟩ := entryTrees?_cons.mp h
    rw [Mapping.get?_cons, Mapping.get?_cons]
    split
    · exact .some hx
    · exact ih hrest

theorem insert_of_trees (h : entryTrees? es = some ws) (hx : tree? x = some v) (key : Value) :
    entryTrees? (Mapping.insert es key x) = some (Mapping.insert ws key v) := by
  induction es generalizing ws with
  | nil =>
    obtain rfl := Option.some.inj h
    exact entryTrees?_cons.mpr ⟨v, [], hx, rfl, rfl⟩
  | cons e es ih =>
    obtain ⟨w, rest, hw, hrest, rfl⟩ := entryTrees?_cons.mp h
    rw [Mapping.insert, Mapping.insert]
    split
    · exact entryTrees?_cons.mpr ⟨v, rest, hx, hrest, rfl⟩
    · exact entryTrees?_cons.mpr ⟨w, _, hw, ih hrest, rfl⟩

end Item

open Item

variable {x : Item} {v : Value} {es src : Mapping Item} {vs ws : Mapping Value}
  {shared : SharedTable}

/-! ## Changes in place -/

/-- Changing the mapping under a key of a tree: there is none, or it is replaced by the changed one
and the table stays. -/
theorem change?_of_trees (h : entryTrees? es = some vs) (shared : SharedTable) (key : Value)
    {f : SharedTable → Mapping Item → Mapping Item × SharedTable}
    {g : Mapping Value → Mapping Value}
    (hf : ∀ inner ws, entryTrees? inner = some ws →
      ∃ inner', f shared inner = (inner', shared) ∧ entryTrees? inner' = some (g ws)) :
    (change? shared es key f = none ∧ ∀ ws, Mapping.get? vs key ≠ some (.mapping ws)) ∨
    ∃ ws es', Mapping.get? vs key = some (.mapping ws) ∧
      change? shared es key f = some (es', shared) ∧ entryTrees? es' = some (Mapping.insert vs key (.mapping (g ws))) := by
  have hkey := get?_of_trees h key
  rw [change?]
  generalize Mapping.get? es key = x, Mapping.get? vs key = v at hkey ⊢
  cases hkey with
  | none => exact .inl ⟨rfl, by simp⟩
  | some hx =>
    obtain ⟨rfl, hv⟩ | ⟨items, values, rfl, rfl, -⟩ | ⟨inner, ws, rfl, rfl, hinner⟩ :=
      tree?_cases hx
    · refine .inl ⟨rfl, ?_⟩
      rintro ws ⟨⟩
      cases hv
    · exact .inl ⟨rfl, by simp⟩
    · obtain ⟨inner', hchanged, htree⟩ := hf inner ws hinner
      refine .inr ⟨ws, Mapping.insert es key (.mapping inner'), rfl, ?_, ?_⟩
      · simp only [hchanged]
      · exact insert_of_trees h (tree?_mapping htree) key

theorem assignIn_of_trees (shared : SharedTable) (path : KeyPath) (hx : tree? x = some v)
    (h : entryTrees? es = some vs) : ∃ es', assignIn shared es path x = (es', shared) ∧
      entryTrees? es' = some (assign vs path v) := by
  induction path generalizing es vs with
  | nil => exact ⟨es, rfl, h⟩
  | cons key path ih =>
    cases path with
    | nil => exact ⟨_, rfl, insert_of_trees h hx _⟩
    | cons next path =>
      rw [assignIn, assign_cons, Mapping.named?]
      obtain ⟨hnone, hold⟩ | ⟨ws, es', hold, hsome, htree⟩ :=
        change?_of_trees h shared (.str key)
          (f := fun shared inner => assignIn shared inner (next :: path) x)
          (g := fun ws => assign ws (next :: path) v) fun inner ws hinner => ih hinner
      · have hempty : entryTrees? [] = some [] := rfl
        obtain ⟨inner, hinner, htree⟩ := ih hempty
        have hopened : opened (Mapping.get? vs (.str key)) = [] := by
          cases ho : Mapping.get? vs (.str key) with
          | none => rfl
          | some old =>
            cases old with
            | mapping ws => exact absurd ho (hold ws)
            | _ => rfl
        rw [hnone, hinner, hopened]
        exact ⟨_, rfl, insert_of_trees h (tree?_mapping htree) _⟩
      · rw [hsome, hold]
        exact ⟨es', rfl, htree⟩

mutual

theorem overlayWith_of_trees
    (merged : Nat → SharedTable → Mapping Item → Mapping Item × SharedTable)
    (shared : SharedTable) (key : Value) :
    ∀ {x : Item} {v : Value} {es : Mapping Item} {vs : Mapping Value}, tree? x = some v →
      entryTrees? es = some vs → ∃ es', overlayWith merged shared es key x = (es', shared) ∧
        entryTrees? es' = some (Mapping.insert vs key (overlay (Mapping.get? vs key) v))
  | .plain _, v, es, vs, hx, h => by
    obtain ⟨he, hv⟩ | ⟨_, _, he, -⟩ | ⟨_, _, he, -⟩ := tree?_cases hx <;> cases he
    rcases overlay_cases (Mapping.get? vs key) _ with hoverlay | ⟨_, _, -, hmapping, -⟩
    · rw [hoverlay]
      exact ⟨_, rfl, insert_of_trees h hx key⟩
    · rw [hmapping] at hv
      cases hv
  | .list items, v, es, vs, hx, h => by
    obtain ⟨values, -, rfl⟩ := Option.map_eq_some_iff.mp hx
    exact ⟨_, rfl, insert_of_trees h hx key⟩
  | .mapping src, v, es, vs, hx, h => by
    obtain ⟨ws, hsrc, rfl⟩ := Option.map_eq_some_iff.mp hx
    rw [overlayWith]
    obtain ⟨hnone, hold⟩ | ⟨inner, es', hold, hsome, htree⟩ :=
      change?_of_trees h shared key
        (f := fun shared inner => mergeWith merged shared inner src)
        (g := fun inner => merge inner ws) fun inner ws hinner =>
          mergeWith_of_trees merged shared hsrc hinner
    · rcases overlay_cases (Mapping.get? vs key) (.mapping ws) with
        hoverlay | ⟨target, _, htarget, -, -⟩
      · rw [hnone, hoverlay]
        exact ⟨_, rfl, insert_of_trees h hx key⟩
      · exact absurd htarget (hold target)
    · rw [hsome, hold]
      exact ⟨es', rfl, htree⟩

theorem mergeWith_of_trees
    (merged : Nat → SharedTable → Mapping Item → Mapping Item × SharedTable)
    (shared : SharedTable) :
    ∀ {src : List (Value × Item)} {ws : Mapping Value} {es : Mapping Item} {vs : Mapping Value},
      entryTrees? src = some ws → entryTrees? es = some vs →
        ∃ es', mergeWith merged shared es src = (es', shared) ∧
          entryTrees? es' = some (merge vs ws)
  | [], _, es, _, hsrc, h => by
    obtain rfl := Option.some.inj hsrc
    exact ⟨es, rfl, h⟩
  | (key, _) :: _, _, _, _, hsrc, h => by
    obtain ⟨v, rest, hx, hrest, rfl⟩ := entryTrees?_cons.mp hsrc
    obtain ⟨es', hes', htree⟩ := overlayWith_of_trees merged shared key hx h
    rw [mergeWith, hes', merge]
    exact mergeWith_of_trees merged shared hrest htree

end

/-! ## Settings -/

/-- Settings in which nothing is shared have these entries. -/
def Settings.Shows (s : Settings) (vs : Mapping Value) : Prop := entryTrees? s.entries = some vs

namespace Settings.Shows

variable {s : Settings}

theorem ofEntries (vs : Mapping Value) : (Settings.ofEntries vs).Shows vs :=
  entryTrees?_ofEntries vs

theorem value_eq (h : s.Shows vs) : s.value = vs := entryValues_of_trees _ h

theorem assign (h : s.Shows vs) (path : KeyPath) (v : Value) :
    (s.assign path v).Shows (Config.assign vs path v) := by
  obtain ⟨es', hes', htree⟩ := assignIn_of_trees s.shared path (tree?_ofValue v) h
  rw [Settings.assign, hes']
  exact htree

theorem merge (h : s.Shows vs) {d : Document} (hd : d.root.tree? = some (.mapping ws)) :
    (s.merge d).Shows (Config.merge vs ws) := by
  obtain ⟨-, hv⟩ | ⟨_, _, -, hv, -⟩ | ⟨src, ws', hroot, hv, hsrc⟩ := tree?_cases hd
  · cases hv
  · cases hv
  · cases hv
    have hsource : raiseEntries s.shared.length (d.entries?.getD []) = src := by
      rw [Document.entries?, hroot]
      exact raiseEntries_of_trees _ hsrc
    rw [Settings.merge, hsource]
    obtain ⟨es', hes', htree⟩ := mergeWith_of_trees
      (mergeShared (s.shared ++ d.shared.map (raiseEntries s.shared.length)).length)
      (s.shared ++ d.shared.map (raiseEntries s.shared.length)) hsrc h
    simp only [hes']
    exact htree

end Settings.Shows

/-! ## Layers -/

/-- A layer in which nothing is shared. -/
inductive PlainLayer where
  | mapping (entries : Mapping Value)
  | assignment (path : KeyPath) (value : Value)

namespace PlainLayer

def apply (settings : Mapping Value) : PlainLayer → Mapping Value
  | .mapping entries => merge settings entries
  | .assignment path value => assign settings path value

/-- The settings of several layers, the first one at the bottom. -/
def stack (layers : List PlainLayer) : Mapping Value := layers.foldl apply []

end PlainLayer

/-- What a layer is if nothing is shared in it. -/
inductive Layer.Shows : Layer → PlainLayer → Prop where
  | document {d : Document} {entries : Mapping Value} :
      d.root.tree? = some (.mapping entries) → Shows (.document d) (.mapping entries)
  | assignment (path : KeyPath) (value : Value) :
      Shows (.assignment path value) (.assignment path value)

namespace Settings.Shows

variable {s : Settings} {layer : Layer} {plain : PlainLayer} {layers : List Layer}
  {plains : List PlainLayer}

theorem apply (h : s.Shows vs) (hl : layer.Shows plain) :
    (s.apply layer).Shows (plain.apply vs) := by
  cases hl with
  | document hd => exact h.merge hd
  | assignment path value => exact h.assign path value

theorem applyAll (h : s.Shows vs) (hl : List.Forall₂ Layer.Shows layers plains) :
    (s.applyAll layers).Shows (plains.foldl PlainLayer.apply vs) := by
  induction hl generalizing s vs with
  | nil => exact h
  | cons hlayer _ ih => exact ih (h.apply hlayer)

end Settings.Shows

theorem value_stack {layers : List Layer} {plains : List PlainLayer}
    (h : List.Forall₂ Layer.Shows layers plains) :
    (Layer.stack layers).value = PlainLayer.stack plains :=
  ((Settings.Shows.ofEntries []).applyAll h).value_eq

end PathRouting.Config
