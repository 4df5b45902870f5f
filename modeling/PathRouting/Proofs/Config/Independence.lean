import PathRouting.Proofs.Config.KeyPath
import PathRouting.Proofs.Config.Sharing

/-!
# Variables that set unrelated settings

Where no key path of some variables is part of another, the whole result is told path by path from
the variables as a collection, so their order does not matter.
-/
namespace PathRouting

open Mapping

namespace Value

/-- What a value is without what it contains as a mapping. -/
def surface : Value → Value
  | .mapping _ => .mapping []
  | v => v

/-- Equality as nested mappings: whatever keys are followed, there is nothing on either side, or a
mapping on either side, or the same value. The order of entries does not count. -/
def Alike (v w : Value) : Prop :=
  ∀ keys, (v.behind? keys).map surface = (w.behind? keys).map surface

/-- Mappings are alike if they have the same keys with values that are alike. -/
theorem alike_mapping_iff {entries others : Mapping Value} :
    Alike (.mapping entries) (.mapping others) ↔
      ∀ key, Option.Rel Alike (Mapping.get? entries key) (Mapping.get? others key) := by
  constructor
  · intro h key
    have hkey : ∀ rest,
        ((Mapping.get? entries key).bind fun inner => inner.behind? rest).map surface =
          ((Mapping.get? others key).bind fun inner => inner.behind? rest).map surface :=
      fun rest => h (key :: rest)
    cases he : Mapping.get? entries key with
    | none =>
      cases ho : Mapping.get? others key with
      | none => exact .none
      | some w => simpa [he, ho, behind?] using hkey []
    | some v =>
      cases ho : Mapping.get? others key with
      | none => simpa [he, ho, behind?] using hkey []
      | some w => exact .some fun rest => by simpa [he, ho] using hkey rest
  · intro h keys
    cases keys with
    | nil => rfl
    | cons key rest =>
      rw [behind?_cons, behind?_cons]
      have hkey := h key
      generalize Mapping.get? entries key = v, Mapping.get? others key = w at hkey ⊢
      cases hkey with
      | none => rfl
      | some halike => exact halike rest

end Value

namespace Config

/-- What variables do to settings: each of them puts the value of its text at its key path, and
what lies beside all their key paths is as before. -/
structure Assigned (start : String) (vars : List (String × String))
    (before after : Mapping Value) : Prop where
  written : ∀ e ∈ vars, ∀ path, Leads start e.1 path →
    ∃ value, valueOfText e.2 = .ok value ∧ lookup (.mapping after) path = some value
  kept : ∀ keys : List Value, (∀ e ∈ vars, ∀ path, Leads start e.1 path →
    Unrelated (keysOf path) keys) →
      (Value.mapping after).behind? keys = (Value.mapping before).behind? keys

variable {settings : Mapping Value} {path : KeyPath} {keys : List Value}

/-! ## Assignments one after another -/

/-- The settings with several values assigned at key paths, in order. -/
def assignAll (settings : Mapping Value) (assignments : List (KeyPath × Value)) :
    Mapping Value :=
  assignments.foldl (fun settings a => assign settings a.1 a.2) settings

variable {assignments : List (KeyPath × Value)} {a : KeyPath × Value}

theorem behind?_assignAll_beside (h : ∀ a ∈ assignments, Unrelated (keysOf a.1) keys) :
    (Value.mapping (assignAll settings assignments)).behind? keys =
      (Value.mapping settings).behind? keys := by
  induction assignments generalizing settings with
  | nil => rfl
  | cons a assignments ih =>
    obtain ⟨ha, hrest⟩ := List.forall_mem_cons.mp h
    exact (ih hrest).trans (behind?_assign_beside ha)

theorem behind?_assignAll_inside (settings : Mapping Value)
    (hfree : assignments.Pairwise fun a b => Unrelated (keysOf a.1) (keysOf b.1))
    (ha : a ∈ assignments) (hne : a.1 ≠ []) (rest : List Value) :
    (Value.mapping (assignAll settings assignments)).behind? (keysOf a.1 ++ rest) =
      a.2.behind? rest := by
  obtain ⟨before, after, rfl⟩ := List.append_of_mem ha
  have hafter : ∀ b ∈ after, Unrelated (keysOf b.1) (keysOf a.1 ++ rest) := by
    intro b hb
    have hab := (List.pairwise_cons.mp (List.pairwise_append.mp hfree).2.1).1 b hb
    exact Unrelated.append hab.symm rest
  rw [assignAll, List.foldl_append, List.foldl_cons]
  exact (behind?_assignAll_beside hafter).trans (behind?_assign_inside hne)

theorem mapping_behind?_assignAll (settings : Mapping Value)
    (hno : ∀ a ∈ assignments, ¬keysOf a.1 <+: keys)
    (h : (∃ a ∈ assignments, keys <+: keysOf a.1) ∨
      ∃ entries, (Value.mapping settings).behind? keys = some (.mapping entries)) :
    ∃ entries, (Value.mapping (assignAll settings assignments)).behind? keys =
      some (.mapping entries) := by
  induction assignments generalizing settings with
  | nil => exact h.resolve_left (by simp)
  | cons a assignments ih =>
    obtain ⟨ha, hrest⟩ := List.forall_mem_cons.mp hno
    apply ih (assign settings a.1 a.2) hrest
    rcases h with ⟨b, hb, hkeys⟩ | hold
    · rcases List.mem_cons.mp hb with rfl | hb
      · exact .inr (mapping_behind?_assign ha (.inl hkeys))
      · exact .inl ⟨b, hb, hkeys⟩
    · exact .inr (mapping_behind?_assign ha (.inr hold))

/-- Assignments at unrelated key paths give the same settings in any order. -/
theorem alike_assignAll {others : List (KeyPath × Value)} (settings : Mapping Value)
    (hperm : assignments.Perm others)
    (hfree : assignments.Pairwise fun a b => Unrelated (keysOf a.1) (keysOf b.1))
    (hne : ∀ a ∈ assignments, a.1 ≠ []) :
    Value.Alike (.mapping (assignAll settings assignments))
      (.mapping (assignAll settings others)) := by
  have hfree' : others.Pairwise fun a b => Unrelated (keysOf a.1) (keysOf b.1) :=
    (hperm.pairwise_iff fun h => h.symm).mp hfree
  intro keys
  -- followed keys lead into a value that is assigned, or along a way to one, or past all of them
  by_cases hinside : ∃ a ∈ assignments, keysOf a.1 <+: keys
  · obtain ⟨a, ha, rest, rfl⟩ := hinside
    rw [behind?_assignAll_inside settings hfree ha (hne a ha),
      behind?_assignAll_inside settings hfree' (hperm.mem_iff.mp ha) (hne a ha)]
  · have hno : ∀ a ∈ assignments, ¬keysOf a.1 <+: keys := by
      intro a ha hp
      exact hinside ⟨a, ha, hp⟩
    have hno' : ∀ a ∈ others, ¬keysOf a.1 <+: keys := by
      intro a ha
      exact hno a (hperm.mem_iff.mpr ha)
    by_cases habove : ∃ a ∈ assignments, keys <+: keysOf a.1
    · obtain ⟨a, ha, hkeys⟩ := habove
      obtain ⟨entries, h⟩ := mapping_behind?_assignAll settings hno (.inl ⟨a, ha, hkeys⟩)
      obtain ⟨entries', h'⟩ :=
        mapping_behind?_assignAll settings hno' (.inl ⟨a, hperm.mem_iff.mp ha, hkeys⟩)
      rw [h, h']
      rfl
    · have hbeside : ∀ a ∈ assignments, Unrelated (keysOf a.1) keys := by
        intro a ha
        exact ⟨hno a ha, fun hp => habove ⟨a, ha, hp⟩⟩
      have hbeside' : ∀ a ∈ others, Unrelated (keysOf a.1) keys := by
        intro a ha
        exact hbeside a (hperm.mem_iff.mpr ha)
      rw [behind?_assignAll_beside hbeside, behind?_assignAll_beside hbeside']

/-! ## The assignments of variables -/

variable {start : String} {vars : List (String × String)} {e : String × String}

theorem valueOfText_error {s : String} {f : Failure} (h : valueOfText s = .error f) :
    ∃ count, f = .tooManyDigits count := by
  unfold valueOfText containerOrText at h
  split at h
  · cases h
  · cases h
  · split at h
    · split at h
      · cases h
      · split at h
        · exact ⟨_, (Except.error.inj h).symm⟩
        · cases h
    · cases h

/-- The assignment of a variable, if its name has the prefix and its text can be read. -/
def assignment? (start : String) (e : String × String) : Option (KeyPath × Value) :=
  (KeyPath.ofName? start e.1).bind fun path =>
    (valueOfText e.2).toOption.map fun value => (path, value)

theorem assignment?_eq_some_iff : assignment? start e = some a ↔
    Leads start e.1 a.1 ∧ valueOfText e.2 = .ok a.2 := by
  obtain ⟨path, value⟩ := a
  rw [leads_iff, assignment?]
  cases KeyPath.ofName? start e.1 with
  | none => simp
  | some path' =>
    cases valueOfText e.2 with
    | error f => simp [Except.toOption]
    | ok value' => simp [Except.toOption]

theorem Layer.ofVariables_ok (h : ∀ e ∈ vars, ∀ path, Leads start e.1 path →
    ∃ value, valueOfText e.2 = .ok value) : Layer.ofVariables start vars =
      .ok ((vars.filterMap (assignment? start)).map fun a => .assignment a.1 a.2) := by
  induction vars with
  | nil => rfl
  | cons e vars ih =>
    obtain ⟨he, hrest⟩ := List.forall_mem_cons.mp h
    rw [Layer.ofVariables, ih hrest, Layer.ofVariable_eq]
    cases hp : KeyPath.ofName? start e.1 with
    | none =>
      have hnone : assignment? start e = none := by rw [assignment?, hp, Option.bind_none]
      rw [List.filterMap_cons_none hnone]
      rfl
    | some path =>
      obtain ⟨value, hv⟩ := he path (leads_iff.mpr hp)
      have hsome : assignment? start e = some (path, value) :=
        assignment?_eq_some_iff.mpr ⟨leads_iff.mpr hp, hv⟩
      rw [List.filterMap_cons_some hsome, hv]
      rfl

theorem Layer.ofVariables_error {f : Failure} (he : e ∈ vars)
    (hp : Leads start e.1 path) (hv : valueOfText e.2 = .error f) :
    ∃ f', Layer.ofVariables start vars = .error f' := by
  induction vars with
  | nil => cases he
  | cons e' vars ih =>
    rw [Layer.ofVariables]
    rcases List.mem_cons.mp he with rfl | he
    · rw [Layer.ofVariable_eq, leads_iff.mp hp, hv]
      exact ⟨f, rfl⟩
    · obtain ⟨f', hf⟩ := ih he
      rw [hf]
      cases Layer.ofVariable start e'.1 e'.2 with
      | error f'' => exact ⟨f'', rfl⟩
      | ok layer => exact ⟨f', rfl⟩

theorem Settings.Shows.applyAll_assignments {s : Settings} (h : s.Shows settings)
    (assignments : List (KeyPath × Value)) :
    (s.applyAll (assignments.map fun a => .assignment a.1 a.2)).Shows
      (assignAll settings assignments) := by
  induction assignments generalizing s settings with
  | nil => exact h
  | cons a assignments ih => exact ih (h.assign a.1 a.2)

theorem value_applyAll_assignments (settings : Mapping Value)
    (assignments : List (KeyPath × Value)) :
    ((Settings.ofEntries settings).applyAll
      (assignments.map fun a => .assignment a.1 a.2)).value = assignAll settings assignments :=
  ((Settings.Shows.ofEntries settings).applyAll_assignments assignments).value_eq

theorem assigned_assignAll (settings : Mapping Value)
    (hread : ∀ e ∈ vars, ∀ path, Leads start e.1 path →
      ∃ value, valueOfText e.2 = .ok value)
    (hfree : (vars.filterMap (assignment? start)).Pairwise
      fun a b => Unrelated (keysOf a.1) (keysOf b.1)) :
    Assigned start vars settings
      (assignAll settings (vars.filterMap (assignment? start))) := by
  constructor
  · intro e he path hp
    obtain ⟨value, hv⟩ := hread e he path hp
    have ha : (path, value) ∈ vars.filterMap (assignment? start) :=
      List.mem_filterMap.mpr ⟨e, he, assignment?_eq_some_iff.mpr ⟨hp, hv⟩⟩
    refine ⟨value, hv, ?_⟩
    have hinside := behind?_assignAll_inside settings hfree ha hp.ne_nil []
    rw [List.append_nil] at hinside
    rw [lookup_eq_behind?, hinside]
    cases value <;> rfl
  · intro keys h
    apply behind?_assignAll_beside
    intro a ha
    obtain ⟨e, he, hassign⟩ := List.mem_filterMap.mp ha
    exact h e he a.1 (assignment?_eq_some_iff.mp hassign).1

/-- Variables whose key paths are unrelated give the same settings in any order, and what these are
is told path by path. Only if a text cannot be read there are no settings, in no order. -/
theorem variables_any_order {others : List (String × String)} (settings : Mapping Value)
    (hperm : vars.Perm others)
    (hfree : vars.Pairwise fun e e' => ∀ p, Leads start e.1 p →
      ∀ q, Leads start e'.1 q → Unrelated p q) :
    (∃ layers layers', Layer.ofVariables start vars = .ok layers ∧
      Layer.ofVariables start others = .ok layers' ∧
      Value.Alike (.mapping ((Settings.ofEntries settings).applyAll layers).value)
        (.mapping ((Settings.ofEntries settings).applyAll layers').value) ∧
      Assigned start vars settings ((Settings.ofEntries settings).applyAll layers).value) ∨
    ∃ e ∈ vars, ∃ path count, Leads start e.1 path ∧
      valueOfText e.2 = .error (.tooManyDigits count) ∧
      (∃ f, Layer.ofVariables start vars = .error f) ∧
      ∃ f, Layer.ofVariables start others = .error f := by
  by_cases hread : ∀ e ∈ vars, ∀ path, Leads start e.1 path →
      ∃ value, valueOfText e.2 = .ok value
  · left
    have hread' : ∀ e ∈ others, ∀ path, Leads start e.1 path →
        ∃ value, valueOfText e.2 = .ok value := by
      intro e he
      exact hread e (hperm.mem_iff.mpr he)
    have hapart : (vars.filterMap (assignment? start)).Pairwise
        fun a b => Unrelated (keysOf a.1) (keysOf b.1) := by
      apply hfree.filterMap
      intro e e' hee a ha b hb
      apply keysOf_unrelated
      exact hee a.1 (assignment?_eq_some_iff.mp ha).1 b.1 (assignment?_eq_some_iff.mp hb).1
    have hne : ∀ a ∈ vars.filterMap (assignment? start), a.1 ≠ [] := by
      intro a ha
      obtain ⟨e, -, hassign⟩ := List.mem_filterMap.mp ha
      exact (assignment?_eq_some_iff.mp hassign).1.ne_nil
    refine ⟨_, _, Layer.ofVariables_ok hread, Layer.ofVariables_ok hread', ?_⟩
    rw [value_applyAll_assignments, value_applyAll_assignments]
    exact ⟨alike_assignAll settings (hperm.filterMap _) hapart hne,
      assigned_assignAll settings hread hapart⟩
  · right
    push Not at hread
    obtain ⟨e, he, path, hp, hnone⟩ := hread
    cases hv : valueOfText e.2 with
    | ok value => exact absurd hv (hnone value)
    | error f =>
      obtain ⟨count, rfl⟩ := valueOfText_error hv
      exact ⟨e, he, path, count, hp, hv, Layer.ofVariables_error he hp hv,
        Layer.ofVariables_error (hperm.mem_iff.mp he) hp hv⟩

/-- Two variables share a mapping that takes the place of a number, one of them has an empty key on
its way, and another variable has no prefix. -/
theorem variables_any_order_shared : ∃ (settings : Mapping Value)
    (vars others : List (String × String)) (layers layers' : List Layer),
      settings = [(.str "a", .int 5), (.int 1, .null),
        (.str "b", .mapping [(.int 1, .bool true)])] ∧
      vars = [("APP_A____Y", "yes"), ("HOME", "/"), ("APP_B__D", "[2]"), ("APP_A__X", "1.5")] ∧
      vars.Perm others ∧ (vars.Pairwise fun e e' => ∀ p, Leads "APP_" e.1 p →
        ∀ q, Leads "APP_" e'.1 q → Unrelated p q) ∧
      Leads "APP_" "APP_A____Y" ["a", "", "y"] ∧
      Layer.ofVariables "APP_" vars = .ok layers ∧ Layer.ofVariables "APP_" others = .ok layers' ∧
      Value.Alike (.mapping ((Settings.ofEntries settings).applyAll layers).value)
        (.mapping ((Settings.ofEntries settings).applyAll layers').value) ∧
      Assigned "APP_" vars settings ((Settings.ofEntries settings).applyAll layers).value := by
  have hperm : [("APP_A____Y", "yes"), ("HOME", "/"), ("APP_B__D", "[2]"),
      ("APP_A__X", "1.5")].Perm [("APP_A__X", "1.5"), ("APP_B__D", "[2]"), ("HOME", "/"),
        ("APP_A____Y", "yes")] := by decide
  have hfree : [("APP_A____Y", "yes"), ("HOME", "/"), ("APP_B__D", "[2]"),
      ("APP_A__X", "1.5")].Pairwise fun e e' => ∀ p, Leads "APP_" e.1 p →
        ∀ q, Leads "APP_" e'.1 q → Unrelated p q := by
    have hnames : [("APP_A____Y", "yes"), ("HOME", "/"), ("APP_B__D", "[2]"),
        ("APP_A__X", "1.5")].Pairwise fun e e' => ∀ p ∈ KeyPath.ofName? "APP_" e.1,
          ∀ q ∈ KeyPath.ofName? "APP_" e'.1, Unrelated p q := by decide +kernel
    exact hnames.imp fun h p hp q hq => h p (leads_iff.mp hp) q (leads_iff.mp hq)
  have hleads : Leads "APP_" "APP_A____Y" ["a", "", "y"] := leads_iff.mpr (by decide +kernel)
  have hread : (Layer.ofVariables "APP_" [("APP_A____Y", "yes"), ("HOME", "/"), ("APP_B__D", "[2]"),
      ("APP_A__X", "1.5")]).toOption.isSome = true := by decide +kernel
  rcases variables_any_order [(.str "a", .int 5), (.int 1, .null),
    (.str "b", .mapping [(.int 1, .bool true)])] hperm hfree with
    ⟨layers, layers', hlayers, hlayers', halike, hassigned⟩ | ⟨-, -, -, -, -, -, ⟨f, hf⟩, -⟩
  · exact ⟨_, _, _, layers, layers', rfl, rfl, hperm, hfree, hleads, hlayers, hlayers', halike,
      hassigned⟩
  · rw [hf] at hread
    cases hread

end Config

end PathRouting
