import PathRouting.Config.Setting
import PathRouting.Proofs.Value.Merging

/-!
# Merging mappings

In settings in which no mapping is shared, a mapping is merged into another one entry by entry. A
value that is no mapping stands afterwards where the merged mapping has it.
-/
namespace PathRouting.Config

open Mapping

/-- At a key path below a value stands another one. -/
inductive HasAt : Value → KeyPath → Value → Prop where
  | here (v : Value) : HasAt v [] v
  | inside {entries : Mapping Value} {key : String} {inner v : Value} {rest : KeyPath} :
      (.str key, inner) ∈ entries → HasAt inner rest v → HasAt (.mapping entries) (key :: rest) v

variable {settings entries : Mapping Value} {key : String} {path rest : KeyPath}
  {inner value : Value}

/-! ## Values at key paths -/

theorem HasAt.nil_iff {v : Value} : HasAt v [] value ↔ v = value := by
  constructor
  · rintro ⟨⟩
    rfl
  · rintro rfl
    exact .here v

theorem lookup_cons (settings : Mapping Value) (key : String) (rest : KeyPath) :
    lookup (.mapping settings) (key :: rest) =
      (named? settings key).bind fun inner => lookup inner rest := rfl

theorem named?_of_distinct (hd : Distinct entries) (hm : (.str key, inner) ∈ entries) :
    named? entries key = some inner := by
  induction entries with
  | nil => cases hm
  | cons e entries ih =>
    obtain ⟨hfirst, hrest⟩ := List.pairwise_cons.mp hd
    rw [named?, get?_cons]
    rcases List.mem_cons.mp hm with rfl | hm
    · rw [if_pos (Value.sameKey_text_iff.mpr rfl)]
    · rw [if_neg (hfirst _ hm)]
      exact ih hrest hm

theorem HasAt.lookup_eq {v : Value} (h : HasAt v path value)
    (hd : ∀ path entries, HasAt v path (.mapping entries) → Distinct entries) :
    lookup v path = some value := by
  induction h with
  | here v => rfl
  | @inside entries key inner v rest hm _ ih =>
    rw [lookup_cons, named?_of_distinct (hd [] entries (.here _)) hm]
    exact ih fun path entries hp => hd (key :: path) entries (.inside hm hp)

/-! ## Merging a mapping -/

mutual

/-- A value laid over one that may be there: two mappings are merged, anything else wins. -/
def overlay (old : Option Value) : Value → Value
  | .mapping source =>
    match old with
    | some (.mapping target) => .mapping (merge target source)
    | _ => .mapping source
  | v => v

def merge (target : Mapping Value) : List (Value × Value) → Mapping Value
  | [] => target
  | (k, v) :: rest => merge (Mapping.insert target k (overlay (Mapping.get? target k) v)) rest

end

theorem merge_append (target xs ys : Mapping Value) :
    merge target (xs ++ ys) = merge (merge target xs) ys := by
  induction xs generalizing target with
  | nil => rfl
  | cons e xs ih => exact ih _

theorem named?_merge_of_notMem (h : ∀ e ∈ entries, e.1 ≠ .str key) :
    named? (merge settings entries) key = named? settings key := by
  induction entries generalizing settings with
  | nil => rfl
  | cons e entries ih =>
    rw [merge, ih fun e' he' => h e' (List.mem_cons_of_mem _ he')]
    exact named?_insert_of_key_ne settings (h e List.mem_cons_self) _

theorem named?_merge (hd : Distinct entries) (hm : (.str key, inner) ∈ entries) :
    named? (merge settings entries) key = some (overlay (named? settings key) inner) := by
  obtain ⟨xs, ys, rfl⟩ := List.append_of_mem hm
  obtain ⟨-, hys, hxs⟩ := List.pairwise_append.mp hd
  have hbefore : ∀ e ∈ xs, e.1 ≠ .str key := by
    intro e he hk
    exact hxs e he _ List.mem_cons_self (Value.sameKey_iff_text.mpr hk)
  have hafter : ∀ e ∈ ys, e.1 ≠ .str key := by
    intro e he hk
    exact (List.pairwise_cons.mp hys).1 e he (Value.sameKey_text_iff.mpr hk)
  rw [merge_append, merge, named?_merge_of_notMem hafter, named?_insert_self]
  have hold : Mapping.get? (merge settings xs) (.str key) = named? settings key :=
    named?_merge_of_notMem hbefore
  rw [hold]

theorem overlay_cases (old : Option Value) (inner : Value) : overlay old inner = inner ∨
    ∃ target es, old = some (.mapping target) ∧ inner = .mapping es ∧
      overlay old inner = .mapping (merge target es) := by
  unfold overlay
  split
  · rename_i es
    split
    · rename_i target
      exact .inr ⟨target, es, rfl, rfl, rfl⟩
    · exact .inl rfl
  · exact .inl rfl

/-- A value that is no mapping stands after merging where the mapping has it. -/
theorem lookup_merge (h : HasAt (.mapping entries) path value) (hv : value.isMapping = false)
    (hd : ∀ path es, HasAt (.mapping entries) path (.mapping es) → Distinct es) :
    lookup (.mapping (merge settings entries)) path = some value := by
  induction path generalizing settings entries with
  | nil =>
    obtain rfl := HasAt.nil_iff.mp h
    cases hv
  | cons key rest ih =>
    cases h with
    | @inside _ _ inner _ _ hm hin =>
      have hinner : ∀ path es, HasAt inner path (.mapping es) → Distinct es :=
        fun path es hp => hd (key :: path) es (.inside hm hp)
      rw [lookup_cons, named?_merge (hd [] entries (.here _)) hm, Option.bind_some]
      rcases overlay_cases (named? settings key) inner with ho | ⟨target, es, -, rfl, ho⟩
      · rw [ho]
        exact hin.lookup_eq hinner
      · rw [ho]
        exact ih hin hinner

end PathRouting.Config
