import PathRouting.Value.Mapping

/-!
# Mappings with texts as keys

Where all keys are texts, a mapping is looked into and changed as a list of names with values.
-/
namespace PathRouting.Mapping

variable {α β : Type}

def ofTexts (f : β → α) (entries : List (String × β)) : Mapping α :=
  entries.map fun e => (.str e.1, f e.2)

theorem ofTexts_append (f : β → α) (xs ys : List (String × β)) :
    ofTexts f (xs ++ ys) = ofTexts f xs ++ ofTexts f ys := List.map_append

theorem named?_ofTexts (f : β → α) (entries : List (String × β)) (name : String) :
    named? (ofTexts f entries) name = (entries.lookup name).map f := by
  induction entries with
  | nil => rfl
  | cons e entries ih =>
    obtain ⟨other, value⟩ := e
    rw [ofTexts, List.map_cons, named?, get?_cons, Value.sameKey_str, List.lookup_cons,
      Bool.beq_comm]
    cases name == other with
    | true => rfl
    | false => exact ih

theorem mem_of_named? {m : Mapping α} {name : String} {value : α}
    (h : named? m name = some value) : ∃ key, (key, value) ∈ m := by
  induction m with
  | nil => cases h
  | cons e m ih =>
    rw [named?, get?_cons] at h
    split at h
    · obtain rfl := Option.some.inj h
      exact ⟨e.1, List.mem_cons_self⟩
    · obtain ⟨key, hm⟩ := ih h
      exact ⟨key, List.mem_cons_of_mem _ hm⟩

theorem lookup_of_notMem {entries : List (String × α)} {name : String}
    (h : name ∉ entries.map Prod.fst) : entries.lookup name = none := by
  rw [List.lookup_eq_none_iff]
  intro e he
  rw [bne_iff_ne]
  rintro rfl
  exact h (List.mem_map_of_mem he)

theorem lookup_of_mem {entries : List (String × α)} (hn : (entries.map Prod.fst).Nodup)
    {name : String} {value : α} (h : (name, value) ∈ entries) :
    entries.lookup name = some value := by
  obtain ⟨before, after, rfl⟩ := List.append_of_mem h
  rw [List.map_append, List.map_cons, List.nodup_append] at hn
  have hbefore : name ∉ before.map Prod.fst := fun hm =>
    hn.2.2 name hm name (List.mem_cons_self ..) rfl
  rw [List.lookup_append, lookup_of_notMem hbefore, Option.none_or, List.lookup_cons_self]

theorem lookup_eq_some_iff {entries : List (String × α)} (hn : (entries.map Prod.fst).Nodup)
    {name : String} {value : α} : entries.lookup name = some value ↔ (name, value) ∈ entries := by
  constructor
  · intro h
    obtain ⟨before, after, rfl, -⟩ := List.lookup_eq_some_iff.mp h
    simp
  · exact lookup_of_mem hn

theorem lookup_perm {xs ys : List (String × α)} (hn : (xs.map Prod.fst).Nodup) (h : xs.Perm ys)
    (name : String) : xs.lookup name = ys.lookup name := by
  have hn' : (ys.map Prod.fst).Nodup := (h.map Prod.fst).nodup_iff.mp hn
  refine Option.ext fun value => ?_
  rw [lookup_eq_some_iff hn, lookup_eq_some_iff hn', h.mem_iff]

/-- Entries that have the same values under all names are the same up to their order. -/
theorem perm_of_lookup {xs ys : List (String × α)} (hx : (xs.map Prod.fst).Nodup)
    (hy : (ys.map Prod.fst).Nodup) (h : ∀ name, xs.lookup name = ys.lookup name) :
    xs.Perm ys := by
  have hnodup : ∀ {zs : List (String × α)}, (zs.map Prod.fst).Nodup → zs.Nodup := fun hz =>
    List.Pairwise.of_map Prod.fst (fun _ _ hne he => hne (congrArg Prod.fst he)) hz
  refine (List.perm_ext_iff_of_nodup (hnodup hx) (hnodup hy)).mpr fun e => ?_
  obtain ⟨name, value⟩ := e
  rw [← lookup_eq_some_iff hx, ← lookup_eq_some_iff hy, h name]

theorem lookup_map (f : α → β) (entries : List (String × α)) (name : String) :
    (entries.map fun e => (e.1, f e.2)).lookup name = (entries.lookup name).map f := by
  induction entries with
  | nil => rfl
  | cons e entries ih =>
    rw [List.map_cons, List.lookup_cons, List.lookup_cons]
    cases name == e.1 with
    | true => rfl
    | false => exact ih

theorem insert_ofTexts {f : β → α} {entries : List (String × β)} {name : String}
    (h : name ∉ entries.map Prod.fst) (value : β) :
    insert (ofTexts f entries) (.str name) (f value) = ofTexts f (entries ++ [(name, value)]) := by
  induction entries with
  | nil => rfl
  | cons e entries ih =>
    rw [List.map_cons, List.mem_cons, not_or] at h
    have hne : ¬(e.1 == name) = true := by
      rw [beq_iff_eq]
      exact Ne.symm h.1
    rw [ofTexts, List.map_cons, insert, Value.sameKey_str, if_neg hne]
    exact congrArg _ (ih h.2)

theorem insert_ofTexts_of_mem {entries : List (String × α)} {name : String}
    (h : name ∈ entries.map Prod.fst) (value : α) : ∃ entries' : List (String × α),
      insert (ofTexts id entries) (.str name) value = ofTexts id entries' ∧
        entries'.map Prod.fst = entries.map Prod.fst := by
  induction entries with
  | nil => cases h
  | cons e entries ih =>
    have hc : insert (ofTexts id (e :: entries)) (.str name) value =
        if (e.1 == name) = true then (.str e.1, value) :: ofTexts id entries
        else (.str e.1, e.2) :: insert (ofTexts id entries) (.str name) value := rfl
    by_cases he : e.1 = name
    · refine ⟨(e.1, value) :: entries, ?_, rfl⟩
      rw [hc, if_pos (beq_iff_eq.mpr he)]
      rfl
    · have hm : name ∈ entries.map Prod.fst := (List.mem_cons.mp h).resolve_left (Ne.symm he)
      obtain ⟨entries', heq, hnames⟩ := ih hm
      refine ⟨e :: entries', ?_, congrArg (e.1 :: ·) hnames⟩
      rw [hc, if_neg (mt beq_iff_eq.mp he), heq]
      rfl

theorem nodup_append_new {entries : List (String × α)} {name : String}
    (hn : (entries.map Prod.fst).Nodup) (hm : name ∉ entries.map Prod.fst) (value : α) :
    ((entries ++ [(name, value)]).map Prod.fst).Nodup := by
  rw [List.map_append, List.nodup_append]
  refine ⟨hn, List.pairwise_singleton .., ?_⟩
  intro other hother last hlast he
  rw [List.mem_singleton.mp hlast] at he
  obtain rfl : other = name := he
  exact hm hother

theorem exists_insert_ofTexts {entries : List (String × α)} (hn : (entries.map Prod.fst).Nodup)
    (name : String) (value : α) : ∃ entries' : List (String × α),
      insert (ofTexts id entries) (.str name) value = ofTexts id entries' ∧
        (entries'.map Prod.fst).Nodup := by
  by_cases hm : name ∈ entries.map Prod.fst
  · obtain ⟨entries', heq, hnames⟩ := insert_ofTexts_of_mem hm value
    exact ⟨entries', heq, hnames ▸ hn⟩
  · exact ⟨entries ++ [(name, value)], insert_ofTexts hm value, nodup_append_new hn hm value⟩

theorem erase_ofTexts {f : β → α} {entries : List (String × β)} {name : String}
    (h : name ∉ entries.map Prod.fst) (value : β) :
    erase (ofTexts f (entries ++ [(name, value)])) (.str name) = ofTexts f entries := by
  induction entries with
  | nil =>
    rw [List.nil_append, ofTexts, List.map_singleton, erase, Value.sameKey_str, if_pos (by simp)]
    rfl
  | cons e entries ih =>
    rw [List.map_cons, List.mem_cons, not_or] at h
    have hne : ¬(e.1 == name) = true := by
      rw [beq_iff_eq]
      exact Ne.symm h.1
    rw [List.cons_append, ofTexts, List.map_cons, erase, Value.sameKey_str, if_neg hne]
    exact congrArg _ (ih h.2)

theorem foldl_insertNew_ofTexts {f : β → α} {kept entries : List (String × β)}
    (h : ((kept ++ entries).map Prod.fst).Nodup) :
    entries.foldl (fun m e => insertNew m (.str e.1) (f e.2)) (ofTexts f kept) =
      ofTexts f (kept ++ entries) := by
  induction entries generalizing kept with
  | nil => rw [List.append_nil]; rfl
  | cons e entries ih =>
    obtain ⟨name, value⟩ := e
    have hnew : name ∉ kept.map Prod.fst := by
      intro hm
      rw [List.map_append, List.nodup_append] at h
      exact h.2.2 name hm name (List.mem_cons_self ..) rfl
    have hcontains : ¬contains (ofTexts f kept) (.str name) = true := by
      have hnone := named?_ofTexts f kept name
      rw [lookup_of_notMem hnew, named?] at hnone
      rw [contains, hnone]
      exact Bool.false_ne_true
    have hadd : insertNew (ofTexts f kept) (.str name) (f value) =
        ofTexts f (kept ++ [(name, value)]) := by
      rw [insertNew, if_neg hcontains, ofTexts_append]
      rfl
    rw [List.append_cons] at h ⊢
    rw [List.foldl_cons, ← ih h, ← hadd]

end PathRouting.Mapping
