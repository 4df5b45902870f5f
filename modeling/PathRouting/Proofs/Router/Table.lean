import PathRouting.Config.RouterSetup
import PathRouting.Proofs.Route.Refusal
import PathRouting.Proofs.Router.Registration

/-!
# Tables of routes

A table lists definitions of routes, which can be any values. It makes a router or is reported with
a fault, but for two kinds of definitions: those whose name is no possible key, and those with a
condition that is an expression beyond what can be read.
-/
namespace PathRouting

open Mapping Pattern

/-- The values that documents hold: scalars, texts, and lists and mappings of such values. Integers
have no more digits than are read and written, and mappings have texts as keys, each once. -/
inductive Value.Written : Value → Prop where
  | null : Written .null
  | bool (b : Bool) : Written (.bool b)
  | int {i : Int} : (Nat.toDigits 10 i.natAbs).length ≤ Number.digitLimit → Written (.int i)
  | float (x : Binary64) : Written (.float x)
  | str (s : String) : Written (.str s)
  | list {xs : List Value} : (∀ x ∈ xs, Written x) → Written (.list xs)
  | mapping {entries : List (String × Value)} : (entries.map Prod.fst).Nodup →
      (∀ e ∈ entries, Written e.2) → Written (.mapping (ofTexts id entries))

namespace Value.Written

variable {v : Value} {es : Mapping Value}

theorem named? (h : (Value.mapping es).Written) {name : String}
    (hv : Mapping.named? es name = some v) : v.Written := by
  obtain ⟨key, hm⟩ := mem_of_named? hv
  cases h with
  | mapping _ hw =>
    obtain ⟨e, he, heq⟩ := List.mem_map.mp hm
    obtain ⟨-, rfl⟩ := Prod.mk.inj heq
    exact hw e he

theorem entry (h : (Value.mapping es).Written) (key : String) : (Router.entry es key).Written := by
  rw [Router.entry]
  cases hv : Mapping.named? es key with
  | none => exact .null
  | some v => exact h.named? hv

theorem holds (h : v.Written) (ho : Route.optionalMapping? v = some es) :
    ∃ entries, v.Holds entries := by
  cases h with
  | null => exact ⟨[], .inl ⟨rfl, rfl⟩, List.nodup_nil⟩
  | mapping hn _ => exact ⟨_, .inr rfl, hn⟩
  | _ => cases ho

end Value.Written

namespace Router

variable {r : Router} {name definition : Value} {es : Mapping Value} {e : Failure}

/-- The kinds of the faults that a table is reported with. -/
def tableKinds : List Fault.Kind :=
  [.configInvalid, .duplicateRoute, .methodInvalid, .routeDefinition, .patternInvalid]

theorem refusalKinds_subset : Route.refusalKinds ⊆ tableKinds := by decide

/-- How a listed definition can fail other than with a fault: its name is no possible key, or one of
its conditions is an expression beyond what can be read. -/
inductive Escapes [CharacterNames] (definition : Value) : Failure → Prop where
  | name {es : Mapping Value} {typeName : String} : definition = .mapping es →
      (entry es "name").unhashable? = some typeName →
      Escapes definition (.misuse (.unhashable typeName))
  | condition {es conditions : Mapping Value} {name : String} {condition : Value} {e : Failure} :
      definition = .mapping es → entry es "conditions" = .mapping conditions →
      named? conditions name = some condition → Exceeds condition e → Escapes definition e

theorem refusal?_eq_some (h : r.refusal? name = some e) :
    (∃ typeName, name.unhashable? = some typeName ∧ e = .misuse (.unhashable typeName)) ∨
      e = .fault (Fault.duplicateRoute name []) := by
  unfold refusal? at h
  cases hk : name.unhashable? with
  | some typeName =>
    simp only [named, hk] at h
    exact .inl ⟨typeName, rfl, (Option.some.inj h).symm⟩
  | none =>
    simp only [named, hk] at h
    split at h
    · rename_i hm
      cases hm
    · exact .inr (Option.some.inj h).symm
    · cases h

/-- Why a definition is not registered: its name, a fault, or one of its conditions. -/
theorem add_error [CharacterNames] {d : Route.Definition} (hk : ∀ c, d.check = .ok c → d.Keyed)
    (h : (r.add d).1 = .error e) :
    (∃ typeName, d.name.unhashable? = some typeName ∧ e = .misuse (.unhashable typeName)) ∨
    (∃ f, e = .fault f ∧ f.kind ∈ tableKinds) ∨
    ∃ conditions name condition, d.conditions = .mapping conditions ∧
      named? conditions name = some condition ∧ Exceeds condition e := by
  generalize hx : r.add d = x at h
  cases hx ▸ r.add_cases d with
  | refused hr =>
    obtain rfl := Except.error.inj h
    rcases refusal?_eq_some hr with hname | rfl
    · exact .inl hname
    · have hkind : Fault.Kind.duplicateRoute ∈ tableKinds := by decide
      exact .inr (.inl ⟨_, rfl, hkind⟩)
  | failed hd =>
    obtain rfl := Except.error.inj h
    rcases Route.ofDefinition_error hk (congrArg Prod.fst hd) with ⟨f, rfl, hkind⟩ | hcondition
    · exact .inr (.inl ⟨f, rfl, refusalKinds_subset hkind⟩)
    · exact .inr (.inr hcondition)
  | made _ _ _ => cases h

theorem listedEntries_ok {position : Nat} (h : listedEntries position definition = .ok es) :
    definition = .mapping es := by
  unfold listedEntries at h
  split at h
  · dsimp only at h
    split at h
    · rw [Except.ok.inj h]
    · cases h
  · cases h

theorem listedEntries_error {position : Nat} (h : listedEntries position definition = .error e) :
    ∃ reason, e = definitionFault position reason := by
  unfold listedEntries at h
  split at h
  · dsimp only at h
    split at h
    · cases h
    · exact ⟨_, (Except.error.inj h).symm⟩
  · exact ⟨_, (Except.error.inj h).symm⟩

variable [CharacterNames]

/-- Where a listed definition cannot be registered, there is a fault, or it escapes. -/
theorem addListed_error {position : Nat} (hw : definition.Written)
    (h : r.addListed position definition = .error e) :
    (∃ f, e = .fault f ∧ f.kind ∈ tableKinds) ∨ Escapes definition e := by
  rcases Regex.bind_eq_error.mp h with hes | ⟨es, hes, hadd⟩
  · obtain ⟨reason, rfl⟩ := listedEntries_error hes
    have hkind : Fault.Kind.configInvalid ∈ tableKinds := by decide
    exact .inl ⟨_, rfl, hkind⟩
  · obtain rfl := listedEntries_ok hes
    -- what passes the check as a mapping was written as one, so its keys are texts
    have hk : ∀ c, (listedDefinition es).check = .ok c → (listedDefinition es).Keyed := by
      intro c hc
      obtain ⟨-, -, -, _, _, hconditions, hdefaults, -⟩ := Route.Definition.check_ok hc
      exact ⟨(hw.entry "conditions").holds hconditions, (hw.entry "defaults").holds hdefaults⟩
    split at hadd
    · rename_i e' s hfailed
      obtain rfl := Except.error.inj hadd
      rcases add_error hk (congrArg Prod.fst hfailed) with
        ⟨typeName, hname, rfl⟩ | hfault | ⟨conditions, name, condition, hc, hn, hx⟩
      · exact .inr (.name rfl hname)
      · exact .inl hfault
      · exact .inr (.condition rfl hc hn hx)
    · cases hadd

/-- A name that is no possible key always escapes: it is looked up before anything is checked. -/
theorem addListed_unhashable (r : Router) {position : Nat} {typeName : String}
    (hes : listedEntries position definition = .ok es)
    (hname : (entry es "name").unhashable? = some typeName) :
    r.addListed position definition = .error (.misuse (.unhashable typeName)) := by
  have hnamed : r.named (listedDefinition es).name = .error (.unhashable typeName) := by
    simp only [named, listedDefinition, hname]
  simp only [addListed, hes, bind, Except.bind, add, hnamed]

/-- Where a table cannot be registered, there is a fault, or one of its definitions escapes. -/
theorem addAllListed_error {position : Nat} {definitions : List Value}
    (hw : ∀ definition ∈ definitions, definition.Written)
    (h : r.addAllListed position definitions = .error e) :
    (∃ f, e = .fault f ∧ f.kind ∈ tableKinds) ∨ ∃ definition ∈ definitions,
      Escapes definition e := by
  induction definitions generalizing r position with
  | nil => cases h
  | cons definition definitions ih =>
    rcases Regex.bind_eq_error.mp h with h | ⟨s, -, h⟩
    · rcases addListed_error (hw definition (by simp)) h with hfault | hescapes
      · exact .inl hfault
      · exact .inr ⟨definition, by simp, hescapes⟩
    · rcases ih (fun other hm => hw other (by simp [hm])) h with hfault | ⟨other, hm, hescapes⟩
      · exact .inl hfault
      · exact .inr ⟨other, by simp [hm], hescapes⟩

end Router

/-- A configured table makes a router or is reported with a fault, unless a definition escapes. -/
theorem RouterSetup.router_cases [CharacterNames] (c : RouterSetup) (codec : Codec)
    (hw : ∀ definition ∈ c.routes, definition.Written) :
    (∃ r, c.router codec = .ok r) ∨
    (∃ f, c.router codec = .error (.fault f) ∧ f.kind ∈ Router.tableKinds) ∨
    ∃ definition ∈ c.routes, ∃ e, c.router codec = .error e ∧ Router.Escapes definition e := by
  cases hr : c.router codec with
  | ok r => exact .inl ⟨r, rfl⟩
  | error e =>
    rcases Router.addAllListed_error (r := .empty codec c.cache) hw hr with
      ⟨f, rfl, hkind⟩ | ⟨definition, hm, hescapes⟩
    · exact .inr (.inl ⟨f, rfl, hkind⟩)
    · exact .inr (.inr ⟨definition, hm, e, rfl, hescapes⟩)

end PathRouting
