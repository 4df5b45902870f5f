import PathRouting.Proofs.Config.Gathering
import PathRouting.Proofs.Query.RoundTrip
import PathRouting.Yaml.Reader

/-!
# Which layer a setting comes from

Mappings are merged deeply and variables are assigned along a path, both into the same settings.
For either there is a law of what it writes and a frame law of what it leaves alone. So a setting
is what the last layer to touch its path assigned.
-/
namespace PathRouting.Config

open Mapping

namespace PlainLayer

def content : PlainLayer → Value
  | .mapping entries => .mapping entries
  | .assignment _ value => value

def Assigns : PlainLayer → KeyPath → Value → Prop
  | .mapping entries, path, value => HasAt (.mapping entries) path value
  | .assignment start whole, path, value =>
    ∃ rest, start ≠ [] ∧ path = start ++ rest ∧ HasAt whole rest value

/-- A layer has something at a key path or at an extension of it, or something that gives way to
no path at a part of it. -/
def Touches : PlainLayer → KeyPath → Prop
  | .mapping entries, path => (∃ more v, HasAt (.mapping entries) (path ++ more) v) ∨
    ∃ start more v, path = start ++ more ∧ more ≠ [] ∧ HasAt (.mapping entries) start v ∧
      v.isMapping = false
  | .assignment start _, path => start <+: path ∨ path <+: start

def Proper (layer : PlainLayer) : Prop :=
  ∀ path entries, HasAt layer.content path (.mapping entries) → Distinct entries

end PlainLayer

variable {settings entries : Mapping Value} {key : String} {path rest : KeyPath}
  {inner value : Value}

/-! ## Merging a mapping -/

theorem mapping_of_lookup {v : Value} (h : lookup v (key :: rest) = some value) :
    ∃ es, v = .mapping es := by
  cases v with
  | mapping es => exact ⟨es, rfl⟩
  | _ => cases h

theorem touches_nil (entries : Mapping Value) : (PlainLayer.mapping entries).Touches [] :=
  .inl ⟨[], _, .here _⟩

/-- A mapping touches a path if what it has under the first key gives way to no path, or touches
the rest. -/
theorem touches_cons : (PlainLayer.mapping entries).Touches (key :: rest) ↔
    ∃ inner, (.str key, inner) ∈ entries ∧
      ∀ es, inner = .mapping es → (PlainLayer.mapping es).Touches rest := by
  constructor
  · rintro (⟨more, v, h⟩ | ⟨start, more, v, hpath, hne, h, hv⟩)
    · cases h with
      | @inside _ _ inner _ _ hm hin => exact ⟨inner, hm, fun es he => .inl ⟨more, v, he ▸ hin⟩⟩
    · cases h with
      | here _ => cases hv
      | @inside _ _ inner _ start hm hin =>
        obtain ⟨rfl, rfl⟩ := List.cons.inj hpath
        exact ⟨inner, hm, fun es he => .inr ⟨start, more, v, rfl, hne, he ▸ hin, hv⟩⟩
  · rintro ⟨inner, hm, ht⟩
    by_cases hi : ∃ es, inner = .mapping es
    · obtain ⟨es, rfl⟩ := hi
      rcases ht es rfl with ⟨more, v, hp⟩ | ⟨start, more, v, rfl, hne, hp, hv⟩
      · exact .inl ⟨more, v, .inside hm hp⟩
      · exact .inr ⟨key :: start, more, v, rfl, hne, .inside hm hp, hv⟩
    · have hv : inner.isMapping = false := by
        cases inner with
        | mapping es => exact absurd ⟨es, rfl⟩ hi
        | _ => rfl
      cases rest with
      | nil => exact .inl ⟨[], inner, .inside hm (.here _)⟩
      | cons next rest =>
        exact .inr ⟨[key], next :: rest, inner, rfl, by simp, .inside hm (.here _), hv⟩

theorem lookup_merge_of_not_touches (h : ¬(PlainLayer.mapping entries).Touches path)
    (hl : lookup (.mapping settings) path = some value) :
    lookup (.mapping (merge settings entries)) path = some value := by
  induction path generalizing settings entries with
  | nil => exact absurd (touches_nil entries) h
  | cons key rest ih =>
    have hunder : ∀ inner, (.str key, inner) ∈ entries →
        ∃ es, inner = .mapping es ∧ ¬(PlainLayer.mapping es).Touches rest := by
      intro inner hm
      by_contra hn
      refine h (touches_cons.mpr ⟨inner, hm, fun es he => ?_⟩)
      by_contra ht
      exact hn ⟨es, he, ht⟩
    clear h
    -- entry by entry: one under the first key is merged into what is there, others lie beside it
    induction entries generalizing settings with
    | nil => exact hl
    | cons e entries ihe =>
      obtain ⟨k, inner⟩ := e
      rw [merge]
      refine ihe ?_ fun inner hm => hunder inner (List.mem_cons_of_mem _ hm)
      by_cases hk : k = .str key
      · subst hk
        obtain ⟨es, rfl, ht⟩ := hunder inner List.mem_cons_self
        rw [lookup_cons] at hl
        obtain ⟨old, hold, hin⟩ := Option.bind_eq_some_iff.mp hl
        cases rest with
        | nil => exact absurd (touches_nil es) ht
        | cons next rest =>
          obtain ⟨target, rfl⟩ := mapping_of_lookup hin
          have hget : Mapping.get? settings (.str key) = some (.mapping target) := hold
          rw [lookup_cons, named?_insert_self, hget]
          exact ih ht hin
      · rw [lookup_cons, named?_insert_of_key_ne settings hk]
        exact hl

/-! ## Assigning a variable -/

theorem lookup_assign (hp : path ≠ []) :
    lookup (.mapping (assign settings path inner)) (path ++ rest) = lookup inner rest := by
  rw [lookup_eq_behind?, lookup_eq_behind?, keysOf, List.map_append]
  exact behind?_assign_inside hp

theorem lookup_assign_of_not_touches {start : KeyPath}
    (h : ¬(PlainLayer.assignment start inner).Touches path)
    (hl : lookup (.mapping settings) path = some value) :
    lookup (.mapping (assign settings start inner)) path = some value := by
  have hbeside : Unrelated start path := not_or.mp h
  rw [lookup_eq_behind?] at hl ⊢
  rw [behind?_assign_beside (keysOf_unrelated hbeside)]
  exact hl

/-! ## Layers -/

namespace PlainLayer

theorem lookup_apply {layer : PlainLayer} (h : layer.Assigns path value)
    (hv : value.isMapping = false) (hd : layer.Proper) :
    lookup (.mapping (layer.apply settings)) path = some value := by
  cases layer with
  | mapping entries => exact lookup_merge h hv hd
  | assignment start whole =>
    obtain ⟨rest, hne, rfl, hin⟩ := h
    rw [apply, lookup_assign hne]
    exact hin.lookup_eq hd

theorem lookup_apply_of_not_touches {layer : PlainLayer} (h : ¬layer.Touches path)
    (hl : lookup (.mapping settings) path = some value) :
    lookup (.mapping (layer.apply settings)) path = some value := by
  cases layer with
  | mapping entries => exact lookup_merge_of_not_touches h hl
  | assignment start whole => exact lookup_assign_of_not_touches h hl

theorem lookup_foldl_of_not_touches {layers : List PlainLayer} (h : ∀ l ∈ layers, ¬l.Touches path)
    (hl : lookup (.mapping settings) path = some value) :
    lookup (.mapping (layers.foldl apply settings)) path = some value := by
  induction layers generalizing settings with
  | nil => exact hl
  | cons layer layers ih =>
    refine ih (fun l hm => h l (List.mem_cons_of_mem _ hm)) ?_
    exact lookup_apply_of_not_touches (h layer List.mem_cons_self) hl

/-- A setting is what the last layer to touch its path assigned. -/
theorem lookup_stack {layer : PlainLayer} (below above : List PlainLayer)
    (ha : layer.Assigns path value) (hv : value.isMapping = false) (hd : layer.Proper) (ht : ∀ l ∈ above, ¬l.Touches path) :
    lookup (.mapping (stack (below ++ layer :: above))) path = some value := by
  rw [stack, List.foldl_append, List.foldl_cons]
  exact lookup_foldl_of_not_touches ht (lookup_apply ha hv hd)

end PlainLayer

theorem ofDotted_intercalate (hne : path ≠ []) (hdots : ∀ key ∈ path, '.' ∉ key.toList) :
    KeyPath.ofDotted (".".intercalate path) = path := by
  cases path with
  | nil => exact absurd rfl hne
  | cons key rest =>
    have hfree : ∀ part ∈ key.toList :: rest.map String.toList, '.' ∉ part := by
      intro part hp
      obtain ⟨key', hk, rfl⟩ := List.mem_map.mp (List.map_cons ▸ hp)
      exact hdots key' hk
    have hsplit : Text.splitAll '.' (".".intercalate (key :: rest)).toList =
        key.toList :: rest.map String.toList := by
      rw [String.toList_intercalate]
      exact Text.splitAll_intercalate hfree
    rw [KeyPath.ofDotted, hsplit]
    simp [Function.comp_def]

theorem PlainLayer.Assigns.ne_nil {layer : PlainLayer} (h : layer.Assigns path value)
    (hv : value.isMapping = false) : path ≠ [] := by
  rintro rfl
  cases layer with
  | mapping entries =>
    obtain rfl := HasAt.nil_iff.mp h
    cases hv
  | assignment start whole =>
    obtain ⟨rest, hne, hpath, -⟩ := h
    exact hne (List.append_eq_nil_iff.mp hpath.symm).1

/-- Of what the sources bring, the last layer to touch a path decides: if it assigns a value that is
no mapping, that is the setting, and it is there. -/
theorem run_precedence [YamlReader] {v : FileView Id} {s : Sources} {below above : List PlainLayer}
    {layer : PlainLayer} (h : s.Brings v (below ++ layer :: above)) (hp : layer.Proper)
    (ha : layer.Assigns path value) (hv : value.isMapping = false)
    (hdots : ∀ key ∈ path, '.' ∉ key.toList) (ht : ∀ l ∈ above, ¬l.Touches path) :
    ∃ settings events, run v s = (.ok settings, events) ∧
      get? settings (".".intercalate path) = some value ∧
      require settings (".".intercalate path) = .ok value := by
  obtain ⟨events, hrun⟩ := run_of_brings h
  have hlookup := PlainLayer.lookup_stack below above ha hv hp ht
  have hget : get? (PlainLayer.stack (below ++ layer :: above)) (".".intercalate path) =
      some value := by
    rw [get?, ofDotted_intercalate (ha.ne_nil hv) hdots]
    exact hlookup
  refine ⟨_, events, hrun, hget, ?_⟩
  rw [require, hget]

/-! ## Settings of a site -/

def siteFiles : FileTree := .ofFiles [("c.json", "\x7b\"a\": \x7b\"b\": 1\x7d\x7d"),
  ("c.yaml", "a: \x7bc: 3\x7d\n"), (".env", "# main\nAPP_A = '7'\n")]

def siteSources : Sources where
  paths := ["c.*"]
  variableStart := "APP_"
  variableFile := some ".env"
  environment := [("HOME", "/"), ("APP_A__B", "2"), ("APP_A__D__E", "x")]
  overrides := .mapping [(.str "a", .mapping
    [(.str "d", .mapping [(.str "e", .null)]), (.str "c", .list [])])]

mutual

/-- Whether two values are the same number, or mappings of texts to values of this kind. -/
def agree : Value → Value → Bool
  | .int i, .int j => i == j
  | .mapping es, .mapping fs => agreeEntries es fs
  | _, _ => false

def agreeEntries : List (Value × Value) → List (Value × Value) → Bool
  | [], [] => true
  | (.str k, v) :: es, (.str l, w) :: fs => k == l && agree v w && agreeEntries es fs
  | _, _ => false

end

mutual

theorem eq_of_agree {v w : Value} (h : agree v w = true) : v = w := by
  unfold agree at h
  split at h
  · rw [eq_of_beq h]
  · rw [eq_of_agreeEntries h]
  · cases h

theorem eq_of_agreeEntries {es fs : List (Value × Value)} (h : agreeEntries es fs = true) :
    es = fs := by
  unfold agreeEntries at h
  split at h
  · rfl
  · obtain ⟨⟨hkey, hvalue⟩, hrest⟩ := by simpa only [Bool.and_eq_true] using h
    rw [eq_of_beq hkey, eq_of_agree hvalue, eq_of_agreeEntries hrest]
  · cases h

end

theorem ok_of_any {ε α : Type} {r : Except ε α} {p : α → Bool} (h : r.toOption.any p = true) :
    ∃ a, r = .ok a ∧ p a = true := by
  cases r with
  | error => cases h
  | ok a => exact ⟨a, rfl, h⟩

theorem holds_site_json :
    Holds siteFiles.view "c.json" (.mapping [(.str "a", .mapping [(.str "b", .int 1)])]) := by
  have hread : (Json.read "\x7b\"a\": \x7b\"b\": 1\x7d\x7d").toOption.any (fun d =>
      agree d.toValue (.mapping [(.str "a", .mapping [(.str "b", .int 1)])])) = true := by
    decide +kernel
  obtain ⟨d, hd, hvalue⟩ := ok_of_any hread
  rw [← eq_of_agree hvalue]
  exact .json (by decide +kernel) ⟨by decide +kernel, by decide +kernel⟩ hd

theorem holds_site_yaml :
    Holds siteFiles.view "c.yaml" (.mapping [(.str "a", .mapping [(.str "c", .int 3)])]) := by
  have hread : (YamlReader.readYaml "a: \x7bc: 3\x7d\n").toOption.any (fun d =>
      d.root.tree?.any
        (agree · (.mapping [(.str "a", .mapping [(.str "c", .int 3)])]))) = true := by
    decide +kernel
  obtain ⟨d, hd, htree⟩ := ok_of_any hread
  obtain ⟨value, hvalue, hsame⟩ := (Option.any_eq_true _ _).mp htree
  rw [eq_of_agree hsame] at hvalue
  exact .yaml (.inl (by decide +kernel)) ⟨by decide +kernel, by decide +kernel⟩ hd hvalue

theorem stored_site :
    VariableFileBrings siteFiles.view "APP_" (some ".env") [.assignment ["a"] (.int 7)] := by
  have hcomment : variableOfLine "# main".toList = none := by decide +kernel
  have hset : LineSets "APP_A = '7'".toList ("APP_A", "7") :=
    variableOfLine_eq_some_iff.mp (by decide +kernel)
  have hname : Leads "APP_" "APP_A" ["a"] := leads_iff.mpr (by decide +kernel)
  have hlines : BringAll (LineBrings "APP_") (Text.lines "# main\nAPP_A = '7'\n".toList)
      [.assignment ["a"] (.int 7)] := by
    have hnothing : LineBrings "APP_" "# main".toList [] := by
      refine .nothing fun e he => ?_
      rw [variableOfLine_eq_some_iff.mpr he] at hcomment
      cases hcomment
    have hassigned : LineBrings "APP_" "APP_A = '7'".toList [.assignment ["a"] (.int 7)] :=
      .sets hset (.assignment hname (by rfl))
    exact BringAll.cons hnothing (BringAll.cons hassigned BringAll.nil)
  exact .present (by decide) (by decide +kernel) ⟨by decide +kernel, by decide +kernel⟩ hlines

theorem brings_site : siteSources.Brings siteFiles.view
    ([.mapping [(.str "a", .mapping [(.str "b", .int 1)])],
      .mapping [(.str "a", .mapping [(.str "c", .int 3)])], .assignment ["a"] (.int 7)] ++
    .assignment ["a", "b"] (.int 2) :: [.assignment ["a", "d", "e"] (.str "x"),
      .mapping [(.str "a", .mapping
        [(.str "d", .mapping [(.str "e", .null)]), (.str "c", .list [])])]]) := by
  have hpaths : (Glob.expand siteFiles.view "c.*").run = ["c.json", "c.yaml"] := by
    decide +kernel
  have hfiles : PatternBrings siteFiles.view "c.*"
      [.mapping [(.str "a", .mapping [(.str "b", .int 1)])],
        .mapping [(.str "a", .mapping [(.str "c", .int 3)])]] := by
    have hjson : FileBrings siteFiles.view "c.json" _ :=
      .mk holds_site_json (.mapping (List.cons_ne_nil _ _))
    have hyaml : FileBrings siteFiles.view "c.yaml" _ :=
      .mk holds_site_yaml (.mapping (List.cons_ne_nil _ _))
    exact .mk (List.cons_ne_nil "c.json" ["c.yaml"]) (hpaths ▸ List.Perm.refl _) (by decide)
      (BringAll.cons hjson (BringAll.cons hyaml BringAll.nil))
  have hb : Leads "APP_" "APP_A__B" ["a", "b"] := leads_iff.mpr (by decide +kernel)
  have hde : Leads "APP_" "APP_A__D__E" ["a", "d", "e"] := leads_iff.mpr (by decide +kernel)
  have henvironment : BringAll (VariableBrings "APP_") siteSources.environment
      [.assignment ["a", "b"] (.int 2), .assignment ["a", "d", "e"] (.str "x")] := by
    have hhome : VariableBrings "APP_" ("HOME", "/") [] := .other (by decide)
    have hfirst : VariableBrings "APP_" ("APP_A__B", "2") [.assignment ["a", "b"] (.int 2)] :=
      .assignment hb (by rfl)
    have hsecond : VariableBrings "APP_" ("APP_A__D__E", "x")
        [.assignment ["a", "d", "e"] (.str "x")] := .assignment hde (by rfl)
    exact BringAll.cons hhome (BringAll.cons hfirst (BringAll.cons hsecond BringAll.nil))
  have hoverrides : ValueBrings siteSources.overrides [.mapping [(.str "a", .mapping
      [(.str "d", .mapping [(.str "e", .null)]), (.str "c", .list [])])]] :=
    .mapping (List.cons_ne_nil _ _)
  exact Sources.Brings.mk (BringAll.cons hfiles BringAll.nil) stored_site henvironment hoverrides

/-- A variable turns a setting that two files brought into a number, the next one makes a mapping of
it again, and what comes later goes beside that. -/
theorem run_precedence_variable : ∃ settings events,
    run siteFiles.view siteSources = (.ok settings, events) ∧
      get? settings "a.b" = some (.int 2) ∧ require settings "a.b" = .ok (.int 2) := by
  have hproper : (PlainLayer.assignment ["a", "b"] (.int 2)).Proper := by
    intro path entries h
    cases h
  refine run_precedence brings_site hproper ⟨[], by simp, rfl, .here _⟩ rfl (by decide) ?_
  intro l hl
  rcases List.mem_pair.mp hl with rfl | rfl
  · rintro (h | h)
    · exact absurd h (by decide)
    · exact absurd h (by decide)
  · simp [touches_cons]

/-- A document may show one mapping at two places. A variable for one of them then changes the
setting at the other, which no layer touches but the file. -/
theorem run_changes_shared : ∃ settings events,
    run (FileTree.ofFiles [("c.yaml", "a: &x \x7bk: 1\x7d\nb: *x\n")]).view
        ⟨["c.yaml"], "APP_", none, [("APP_A__K", "2")], .null⟩ = (.ok settings, events) ∧
      get? settings "b.k" = some (.int 2) := by
  have hrun : (run (FileTree.ofFiles [("c.yaml", "a: &x \x7bk: 1\x7d\nb: *x\n")]).view
      ⟨["c.yaml"], "APP_", none, [("APP_A__K", "2")], .null⟩).1.toOption.any (fun settings =>
        (get? settings "b.k").any (agree · (.int 2))) = true := by decide +kernel
  obtain ⟨settings, hsettings, hget⟩ := ok_of_any hrun
  obtain ⟨value, hvalue, hsame⟩ := (Option.any_eq_true _ _).mp hget
  rw [eq_of_agree hsame] at hvalue
  exact ⟨settings, _, Prod.ext hsettings rfl, hvalue⟩

end PathRouting.Config
