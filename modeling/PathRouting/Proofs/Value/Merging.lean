import PathRouting.Proofs.Value.Keys
import PathRouting.Proofs.Value.TextKeys

/-!
# Mappings merged into one another

What is set unless it is there stands behind what was there before: under every key counts the
first mapping that has it.
-/
namespace PathRouting.Mapping

variable {α β : Type}

theorem get?_append (m m' : Mapping α) (key : Value) :
    get? (m ++ m') key = (get? m key).or (get? m' key) := by
  induction m with
  | nil => rfl
  | cons e m ih =>
    rw [List.cons_append, get?_cons, get?_cons, ih]
    cases e.1.sameKey key <;> rfl

theorem contains_same {m : Mapping α} {k key : Value} (hm : contains m k = true)
    (hk : k.sameKey key = true) : contains m key = true := by
  induction m with
  | nil => cases hm
  | cons e m ih =>
    rw [contains, get?_cons] at hm ⊢
    by_cases he : e.1.sameKey k = true
    · rw [if_pos (Value.sameKey_trans e.1 he hk)]
      rfl
    · rw [if_neg he] at hm
      split
      · rfl
      · exact ih hm

theorem get?_insertNew (m : Mapping α) (k : Value) (v : α) (key : Value) :
    get? (insertNew m k v) key = (get? m key).or (get? [(k, v)] key) := by
  rw [insertNew]
  split
  · rename_i hm
    rw [get?_cons, get?_nil]
    split
    · obtain ⟨w, hw⟩ := Option.isSome_iff_exists.mp (contains_same hm ‹_›)
      rw [hw, Option.some_or]
    · exact (Option.or_none).symm
  · exact get?_append m _ key

theorem get?_merged (m more : Mapping α) (key : Value) :
    get? (more.foldl (fun m (k, v) => insertNew m k v) m) key =
      (get? m key).or (get? more key) := by
  induction more generalizing m with
  | nil => exact (Option.or_none).symm
  | cons e more ih =>
    rw [List.foldl_cons, ih, get?_insertNew, Option.or_assoc, ← get?_append]
    rfl

theorem merged_texts (m : Mapping α) (fields : List (String × α)) :
    fields.foldl (fun m (k, v) => insertNew m (.str k) v) m =
      (ofTexts id fields).foldl (fun m (k, v) => insertNew m k v) m := by
  rw [ofTexts, List.foldl_map]
  rfl

/-! ## Texts as keys -/

theorem get?_ofTexts_of_not_str (f : β → α) (entries : List (String × β)) {key : Value}
    (h : ∀ name, key ≠ .str name) : get? (ofTexts f entries) key = none := by
  induction entries with
  | nil => rfl
  | cons e entries ih =>
    rw [ofTexts, List.map_cons, get?_cons, if_neg fun hs => h e.1 (Value.sameKey_text_iff.mp hs)]
    exact ih

theorem get?_ofTexts_eq_some_iff {f : β → α} {entries : List (String × β)} {key : Value}
    {value : α} : get? (ofTexts f entries) key = some value ↔
      ∃ name, key = .str name ∧ (entries.lookup name).map f = some value := by
  constructor
  · intro h
    by_cases hk : ∃ name, key = .str name
    · obtain ⟨name, rfl⟩ := hk
      exact ⟨name, rfl, named?_ofTexts f entries name ▸ h⟩
    · rw [get?_ofTexts_of_not_str f entries fun name he => hk ⟨name, he⟩] at h
      cases h
  · rintro ⟨name, rfl, h⟩
    exact (named?_ofTexts f entries name).trans h

theorem get?_ofTexts_congr {xs ys : List (String × α)} (h : ∀ name, xs.lookup name = ys.lookup name)
    (key : Value) : get? (ofTexts id xs) key = get? (ofTexts id ys) key := by
  refine Option.ext fun value => ?_
  rw [get?_ofTexts_eq_some_iff, get?_ofTexts_eq_some_iff]
  simp only [h]

/-! ## Setting and selecting names -/

theorem named?_insert_self (m : Mapping α) (name : String) (value : α) :
    named? (insert m (.str name) value) name = some value := by
  rw [named?]
  induction m with
  | nil => rw [insert, get?_cons, if_pos (Value.sameKey_text_iff.mpr rfl)]
  | cons e m ih =>
    have he : insert (e :: m) (.str name) value =
        if e.1.sameKey (.str name) = true then (e.1, value) :: m
        else e :: insert m (.str name) value := rfl
    rw [he]
    split
    · rw [get?_cons, if_pos ‹_›]
    · rw [get?_cons, if_neg ‹_›]
      exact ih

/-- Setting a key leaves alone what stands under another one, if no key is the same as both. -/
theorem get?_insert_of_apart (m : Mapping α) {key other : Value}
    (h : ¬key.sameKey other = true)
    (hapart : ∀ k : Value, k.sameKey key = true → ¬k.sameKey other = true) (value : α) :
    get? (insert m key value) other = get? m other := by
  induction m with
  | nil => rw [insert, get?_cons, if_neg h]
  | cons e m ih =>
    have he : insert (e :: m) key value =
        if e.1.sameKey key = true then (e.1, value) :: m else e :: insert m key value := rfl
    rw [he]
    split
    · rw [get?_cons, get?_cons, if_neg (hapart e.1 ‹_›), if_neg (hapart e.1 ‹_›)]
    · rw [get?_cons, get?_cons, ih]

theorem named?_insert_of_key_ne (m : Mapping α) {name : String} {key : Value}
    (h : key ≠ .str name) (value : α) : named? (insert m key value) name = named? m name := by
  refine get?_insert_of_apart m (fun hs => h (Value.sameKey_iff_text.mp hs)) ?_ value
  intro k hk hs
  rw [Value.sameKey_iff_text.mp hs] at hk
  exact h (Value.sameKey_text_iff.mp hk)

theorem get?_insert_of_ne (m : Mapping α) {name : String} {key : Value} (h : key ≠ .str name)
    (value : α) : get? (insert m (.str name) value) key = get? m key := by
  refine get?_insert_of_apart m (fun hs => h (Value.sameKey_text_iff.mp hs)) ?_ value
  intro k hk hs
  rw [Value.sameKey_iff_text.mp hk] at hs
  exact h (Value.sameKey_text_iff.mp hs)

theorem named?_insert_of_ne (m : Mapping α) {name other : String} (h : name ≠ other)
    (value : α) : named? (insert m (.str other) value) name = named? m name :=
  named?_insert_of_key_ne m (fun he => h (Value.str.inj he).symm) value

theorem named?_filter (m : Mapping α) {keep : Value → Bool} {name : String}
    (h : keep (.str name) = true) :
    named? (m.filter fun e => keep e.1) name = named? m name := by
  rw [named?, named?]
  induction m with
  | nil => rfl
  | cons e m ih =>
    by_cases hk : e.1.sameKey (.str name) = true
    · have he : keep e.1 = true := by
        rw [Value.sameKey_iff_text.mp hk]
        exact h
      rw [List.filter_cons_of_pos (by exact he), get?_cons, get?_cons, if_pos hk, if_pos hk]
    · rw [get?_cons, if_neg hk, ← ih]
      by_cases he : keep e.1 = true
      · rw [List.filter_cons_of_pos (by exact he), get?_cons, if_neg hk]
      · rw [List.filter_cons_of_neg (by exact he)]

/-! ## Taking a key out -/

def Distinct (m : Mapping α) : Prop := m.Pairwise fun e e' => ¬e.1.sameKey e'.1 = true

theorem get?_isSome_iff {m : Mapping α} {key : Value} :
    (get? m key).isSome = true ↔ ∃ e ∈ m, e.1.sameKey key = true := by
  induction m with
  | nil => simp
  | cons e m ih =>
    rw [get?_cons]
    by_cases he : e.1.sameKey key = true
    · simp [he]
    · simp [he, ih]

theorem Distinct.insertNew {m : Mapping α} (h : Distinct m) (k : Value) (v : α) :
    Distinct (insertNew m k v) := by
  rw [Mapping.insertNew]
  split
  · exact h
  · rename_i hm
    refine List.pairwise_append.mpr ⟨h, List.pairwise_singleton .., fun e he e' he' hs => ?_⟩
    obtain rfl := List.mem_singleton.mp he'
    exact hm (get?_isSome_iff.mpr ⟨e, he, hs⟩)

theorem Distinct.merged {m : Mapping α} (h : Distinct m) (more : Mapping α) :
    Distinct (more.foldl (fun m (k, v) => Mapping.insertNew m k v) m) := by
  induction more generalizing m with
  | nil => exact h
  | cons e more ih => exact ih (h.insertNew e.1 e.2)

theorem distinct_ofTexts {f : β → α} {entries : List (String × β)}
    (h : (entries.map Prod.fst).Nodup) : Distinct (ofTexts f entries) := by
  refine List.pairwise_map.mpr ((List.pairwise_map.mp h).imp fun hne hs => ?_)
  exact hne (by simpa using hs)

theorem erase_cons (e : Value × α) (m : Mapping α) (key : Value) :
    erase (e :: m) key = if e.1.sameKey key = true then m else e :: erase m key := rfl

theorem Distinct.get?_erase_self {m : Mapping α} (h : Distinct m) (name : String) :
    get? (erase m (.str name)) (.str name) = none := by
  induction m with
  | nil => rfl
  | cons e m ih =>
    obtain ⟨hfirst, hrest⟩ := List.pairwise_cons.mp h
    rw [erase_cons]
    by_cases hk : e.1.sameKey (.str name) = true
    · rw [if_pos hk, ← Option.not_isSome_iff_eq_none, get?_isSome_iff]
      rintro ⟨e', he', hs⟩
      refine hfirst e' he' ?_
      rw [Value.sameKey_iff_text.mp hs]
      exact hk
    · rw [if_neg hk, get?_cons, if_neg hk]
      exact ih hrest

theorem get?_erase_of_ne (m : Mapping α) {name : String} {key : Value} (h : key ≠ .str name) :
    get? (erase m (.str name)) key = get? m key := by
  induction m with
  | nil => rfl
  | cons e m ih =>
    rw [erase_cons]
    split
    · rename_i hk
      have hne : ¬(Value.str name).sameKey key := fun hs => h (Value.sameKey_text_iff.mp hs)
      rw [get?_cons, Value.sameKey_iff_text.mp hk, if_neg hne]
    · rw [get?_cons, get?_cons, ih]

theorem erase_append_new (m : Mapping α) {name : String} {k : Value} (h : k ≠ .str name) (v : α) :
    erase (m ++ [(k, v)]) (.str name) = erase m (.str name) ++ [(k, v)] := by
  have hk : ¬k.sameKey (.str name) = true := fun hs => h (Value.sameKey_iff_text.mp hs)
  induction m with
  | nil => rw [List.nil_append, erase_cons, if_neg hk]; rfl
  | cons e m ih =>
    rw [List.cons_append, erase_cons, erase_cons]
    split
    · rfl
    · rw [ih]
      rfl

theorem erase_merged {m more : Mapping α} {name : String} (h : named? more name = none) :
    erase (more.foldl (fun m (k, v) => insertNew m k v) m) (.str name) =
      more.foldl (fun m (k, v) => insertNew m k v) (erase m (.str name)) := by
  induction more generalizing m with
  | nil => rfl
  | cons e more ih =>
    obtain ⟨k, v⟩ := e
    rw [named?, get?_cons] at h
    split at h
    · cases h
    · rename_i hk
      have hne : k ≠ .str name := by
        rintro rfl
        exact hk (Value.sameKey_text_iff.mpr rfl)
      have hstep : erase (insertNew m k v) (.str name) = insertNew (erase m (.str name)) k v := by
        rw [insertNew, insertNew, contains, contains, get?_erase_of_ne m hne]
        split
        · rfl
        · exact erase_append_new m hne v
      rw [List.foldl_cons, List.foldl_cons, ih h, hstep]

/-- Of names that are told once, those that are not there yet are added in their order. -/
theorem merged_ofTexts {m : Mapping α} {fields : List (String × α)}
    (h : (fields.map Prod.fst).Nodup) :
    (ofTexts id fields).foldl (fun m (k, v) => insertNew m k v) m =
      m ++ ofTexts id (fields.filter fun e => (named? m e.1).isNone) := by
  induction fields generalizing m with
  | nil => exact (List.append_nil m).symm
  | cons e fields ih =>
    obtain ⟨name, value⟩ := e
    obtain ⟨hnew, hrest⟩ := List.nodup_cons.mp h
    have hfold : (ofTexts id ((name, value) :: fields)).foldl
        (fun m (k, v) => insertNew m k v) m =
          (ofTexts id fields).foldl (fun m (k, v) => insertNew m k v)
            (insertNew m (.str name) value) := rfl
    rw [hfold, ih hrest, insertNew, contains, ← named?]
    cases hn : named? m name with
    | some old => rw [if_pos Option.isSome_some, List.filter_cons_of_neg (by simp [hn])]
    | none =>
      have hsame : fields.filter (fun e => (named? (m ++ [(.str name, value)]) e.1).isNone) =
          fields.filter fun e => (named? m e.1).isNone := by
        refine List.filter_congr ?_
        intro e he
        have hne : ¬(Value.str name).sameKey (.str e.1) = true := by
          intro hs
          have hname : e.1 = name := Value.str.inj (Value.sameKey_text_iff.mp hs)
          exact hnew (List.mem_map.mpr ⟨e, he, hname⟩)
        rw [named?, get?_append, get?_cons, if_neg hne, get?_nil, Option.or_none, ← named?]
      rw [if_neg (by simp), hsame, List.filter_cons_of_pos (by simp [hn]), List.append_assoc]
      rfl

end PathRouting.Mapping
