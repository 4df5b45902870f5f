import PathRouting.Config.Layer
import PathRouting.Proofs.Text.Splitting

/-!
# The key paths of variables

Behind the prefix, the name of a variable spells a key path: its keys in lower case, with two
underscores between them. Underscores are taken in pairs from the left.
-/
namespace PathRouting.Config

variable {start name behind : String} {path : KeyPath}

/-- The name of a variable leads to a key path: behind the prefix it spells, in lower case, the keys
of the path with two underscores between them. -/
structure Leads (start name : String) (path : KeyPath) : Prop where
  ne_nil : path ≠ []
  spelled : ∃ behind, name = start ++ behind ∧ Text.lower behind = "__".intercalate path
  whole : ∀ key ∈ path, ¬['_', '_'] <:+: key.toList
  leftmost : ∀ key ∈ path.dropLast, ¬['_'] <:+ key.toList

/-- The key path of a variable, if its name has the prefix. -/
def KeyPath.ofName? (start name : String) : Option KeyPath :=
  (Text.dropStart? start.toList name.toList).map fun key => .ofVariable (String.ofList key)

theorem KeyPath.ofVariable_eq_iff : KeyPath.ofVariable behind = path ↔
    Text.FallsInto '_' (Text.lower behind).toList (path.map String.toList) := by
  rw [Text.fallsInto_iff, KeyPath.ofVariable]
  constructor
  · rintro rfl
    simp [Function.comp_def]
  · intro h
    rw [h]
    simp [Function.comp_def]

theorem fallsInto_keys_iff :
    Text.FallsInto '_' (Text.lower behind).toList (path.map String.toList) ↔
      path ≠ [] ∧ Text.lower behind = "__".intercalate path ∧
      (∀ key ∈ path, ¬['_', '_'] <:+: key.toList) ∧
      ∀ key ∈ path.dropLast, ¬['_'] <:+ key.toList := by
  have hjoined : ['_', '_'].intercalate (path.map String.toList) = (Text.lower behind).toList ↔
      Text.lower behind = "__".intercalate path := by
    rw [← String.toList_inj, String.toList_intercalate, eq_comm]
    rfl
  constructor
  · rintro ⟨hne, hj, hwhole, hleft⟩
    refine ⟨fun he => hne (he ▸ rfl), hjoined.mp hj, ?_, ?_⟩
    · exact fun key hk => hwhole _ (List.mem_map_of_mem hk)
    · intro key hk
      exact hleft _ (List.map_dropLast ▸ List.mem_map_of_mem hk)
  · rintro ⟨hne, hj, hwhole, hleft⟩
    refine ⟨fun he => hne (List.map_eq_nil_iff.mp he), hjoined.mpr hj, ?_, ?_⟩
    · exact List.forall_mem_map.mpr hwhole
    · rw [← List.map_dropLast]
      exact List.forall_mem_map.mpr hleft

/-- The path that a name leads to is the one that is read from it. -/
theorem leads_iff : Leads start name path ↔ KeyPath.ofName? start name = some path := by
  have hname : ∀ behind, name = start ++ behind ↔
      Text.dropStart? start.toList name.toList = some behind.toList := by
    intro behind
    rw [Text.dropStart_eq_some_iff, ← String.toList_append, String.toList_inj]
  rw [KeyPath.ofName?, Option.map_eq_some_iff]
  constructor
  · rintro ⟨hne, ⟨behind, hn, hj⟩, hwhole, hleft⟩
    refine ⟨_, (hname behind).mp hn, ?_⟩
    rw [String.ofList_toList, KeyPath.ofVariable_eq_iff, fallsInto_keys_iff]
    exact ⟨hne, hj, hwhole, hleft⟩
  · rintro ⟨key, hkey, hpath⟩
    obtain ⟨hne, hj, hwhole, hleft⟩ := fallsInto_keys_iff.mp (KeyPath.ofVariable_eq_iff.mp hpath)
    exact ⟨hne, ⟨_, (hname _).mpr (by rw [hkey, String.toList_ofList]), hj⟩, hwhole, hleft⟩

theorem Layer.ofVariable_eq (start name text : String) : Layer.ofVariable start name text =
    match KeyPath.ofName? start name with
    | none => .ok none
    | some path => (valueOfText text).map fun value => some (.assignment path value) := by
  rw [Layer.ofVariable, KeyPath.ofName?]
  cases Text.dropStart? start.toList name.toList with
  | none => rfl
  | some key => cases valueOfText text <;> rfl

end PathRouting.Config
