import Mathlib.Data.List.Forall2
import Mathlib.Data.List.Sort
import PathRouting.Config.Source
import PathRouting.Proofs.Config.KeyPath
import PathRouting.Proofs.Config.Sharing

/-!
# What the sources of settings bring

Every file that fits a pattern brings its mapping, every line of a file of variables and every
variable of the environment an assignment if the name has the prefix, and the overrides a mapping.
Loading gathers these layers in this order, and the settings are their stack.
-/
namespace PathRouting.Config

/-! ## Layers in order -/

/-- What several sources bring, one after another. -/
inductive BringAll {α : Type} (brings : α → List PlainLayer → Prop) :
    List α → List PlainLayer → Prop where
  | nil : BringAll brings [] []
  | cons {x : α} {xs : List α} {here rest : List PlainLayer} : brings x here →
      BringAll brings xs rest → BringAll brings (x :: xs) (here ++ rest)

/-- A variable assigns the value of its text, if its name has the prefix. -/
inductive VariableBrings (start : String) : String × String → List PlainLayer → Prop where
  | other {name text : String} : ¬start.toList <+: name.toList →
      VariableBrings start (name, text) []
  | assignment {name text : String} {path : KeyPath} {value : Value} : Leads start name path →
      valueOfText text = .ok value → VariableBrings start (name, text) [.assignment path value]

/-- A line sets a variable: it is no comment, the name ends at the first equals sign, and there may
be quotes around the text. -/
inductive LineSets (line : List Char) : String × String → Prop where
  | mk {left right name bare single text : List Char} :
      Text.Trims Text.isBlank line (left ++ '=' :: right) → '=' ∉ left → left.head? ≠ some '#' →
      Text.Trims Text.isBlank left name → Text.Trims Text.isBlank right bare →
      Text.Trims (· == '"') bare single → Text.Trims (· == '\'') single text →
      LineSets line (String.ofList name, String.ofList text)

/-- A line brings what its variable brings, if it sets one. -/
inductive LineBrings (start : String) (line : List Char) : List PlainLayer → Prop where
  | nothing : (∀ e, ¬LineSets line e) → LineBrings start line []
  | sets {e : String × String} {layers : List PlainLayer} : LineSets line e →
      VariableBrings start e layers → LineBrings start line layers

/-- A file can be read: it is no directory, and its line ends are all taken alike. -/
structure Readable (v : FileView Id) (path text : String) : Prop where
  file : (v.kind? path).run ≠ some .directory
  text_eq : text = String.ofList (Text.universalNewlines (v.content path).run.toList)

/-- A file of variables brings what its lines bring. One that does not exist brings nothing. -/
inductive VariableFileBrings (v : FileView Id) (start : String) :
    Option String → List PlainLayer → Prop where
  | none : VariableFileBrings v start none []
  | empty : VariableFileBrings v start (some "") []
  | missing {path : String} : (v.kind? (Path.normalize path)).run = none →
      VariableFileBrings v start (some path) []
  | present {path text : String} {layers : List PlainLayer} : path ≠ "" →
      (v.kind? (Path.normalize path)).run ≠ none → Readable v (Path.normalize path) text →
      BringAll (LineBrings start) (Text.lines text.toList) layers →
      VariableFileBrings v start (some path) layers

/-- A value brings itself as a layer if it is a mapping, and nothing if it counts as false. -/
inductive ValueBrings : Value → List PlainLayer → Prop where
  | nothing {value : Value} : value.truthy = false → ValueBrings value []
  | mapping {entries : Mapping Value} : entries ≠ [] →
      ValueBrings (.mapping entries) [.mapping entries]

section Brought

variable [YamlReader]

/-- A file holds a document in which nothing is shared. -/
inductive Holds (v : FileView Id) (path : String) : Value → Prop where
  | json {text : String} {document : Json} : Path.suffix path = ".json" →
      Readable v (Path.normalize path) text → Json.read text = .ok document →
      Holds v path document.toValue
  | yaml {text : String} {document : Document} {value : Value} :
      Path.suffix path = ".yaml" ∨ Path.suffix path = ".yml" →
      Readable v (Path.normalize path) text → YamlReader.readYaml text = .ok document →
      document.root.tree? = some value → Holds v path value

/-- A file brings the value that it holds. -/
inductive FileBrings (v : FileView Id) (path : String) : List PlainLayer → Prop where
  | mk {value : Value} {layers : List PlainLayer} : Holds v path value →
      ValueBrings value layers → FileBrings v path layers

/-- A pattern brings what the files bring that fit it, in the order of their paths. There is one. -/
inductive PatternBrings (v : FileView Id) (pattern : String) : List PlainLayer → Prop where
  | mk {paths : List String} {layers : List PlainLayer} : paths ≠ [] →
      paths.Perm (Glob.expand v pattern).run → paths.Pairwise (· ≤ ·) →
      BringAll (FileBrings v) paths layers → PatternBrings v pattern layers

/-- What the sources bring: the files, the file of variables, the environment, the overrides. -/
inductive Sources.Brings (v : FileView Id) (s : Sources) : List PlainLayer → Prop where
  | mk {files stored environment overrides : List PlainLayer} :
      BringAll (PatternBrings v) s.paths files →
      VariableFileBrings v s.variableStart s.variableFile stored →
      BringAll (VariableBrings s.variableStart) s.environment environment →
      ValueBrings s.overrides overrides →
      Sources.Brings v s (files ++ stored ++ environment ++ overrides)

end Brought

/-! ## Loading that succeeds -/

def Gives {α : Type} (x : LoadM Id α) (a : α) : Prop :=
  ∀ events, ∃ after, (x.run).run events = (.ok a, after)

variable {α β : Type} {x : LoadM Id α} {f : α → LoadM Id β} {a : α} {b : β}

theorem gives_pure (a : α) : Gives (pure a) a := fun events => ⟨events, rfl⟩

theorem Gives.bind (hx : Gives x a) (hf : Gives (f a) b) : Gives (x >>= f) b := by
  intro events
  obtain ⟨after, ha⟩ := hx events
  obtain ⟨after', hb⟩ := hf after
  refine ⟨after', ?_⟩
  rw [ExceptT.run_bind, StateT.run_bind, ha]
  exact hb

theorem gives_ask (question : Id α) : Gives (ask question) question.run :=
  fun events => ⟨events, rfl⟩

theorem gives_tell (e : Event) : Gives (tell e) () := fun events => ⟨events ++ [e], rfl⟩

theorem gives_ok {r : Except Failure α} (h : r = .ok a) : Gives (liftM r) a := by
  rw [h]
  exact fun events => ⟨events, rfl⟩

/-! ## Sources that are read -/

abbrev Shown (layers : List Layer) (plain : List PlainLayer) : Prop :=
  List.Forall₂ Layer.Shows layers plain

variable {v : FileView Id} {path pattern start text : String} {line : List Char}
  {e : String × String} {vars : List (String × String)} {plain : List PlainLayer}

theorem Readable.gives (h : Readable v path text) : Gives (readText v path) text := by
  obtain ⟨hfile, rfl⟩ := h
  have hkind : ¬((v.kind? path).run == some .directory) = true := by simpa using hfile
  refine (gives_ask (v.kind? path)).bind ?_
  rw [if_neg hkind]
  exact (gives_ask (v.content path)).bind (gives_pure _)

/-! ### Variables -/

theorem VariableBrings.ofVariable (h : VariableBrings start e plain) :
    ∃ layer, Layer.ofVariable start e.1 e.2 = .ok layer ∧ Shown layer.toList plain := by
  rw [Layer.ofVariable_eq]
  cases h with
  | @other name text hstart =>
    have hnone : KeyPath.ofName? start name = none := by
      rw [KeyPath.ofName?, Option.map_eq_none_iff, Option.eq_none_iff_forall_ne_some]
      intro key hkey
      exact hstart ⟨key, (Text.dropStart_eq_some_iff.mp hkey).symm⟩
    exact ⟨none, by rw [hnone], .nil⟩
  | @assignment name text path value hleads hvalue =>
    refine ⟨some (.assignment path value), ?_, .cons (.assignment path value) .nil⟩
    rw [leads_iff.mp hleads, hvalue]
    rfl

theorem BringAll.ofVariables (h : BringAll (VariableBrings start) vars plain) :
    ∃ layers, Layer.ofVariables start vars = .ok layers ∧ Shown layers plain := by
  induction h with
  | nil => exact ⟨[], rfl, .nil⟩
  | cons he _ ih =>
    obtain ⟨layer, hlayer, hshown⟩ := he.ofVariable
    obtain ⟨others, hothers, hshown'⟩ := ih
    refine ⟨layer.toList ++ others, ?_, List.rel_append hshown hshown'⟩
    rw [Layer.ofVariables, hlayer, hothers]
    rfl

/-- Before an equals sign, a text begins like a comment if what stands before the sign does. -/
theorem head?_append_equals {left right : List Char} :
    ((left ++ '=' :: right).head? == some '#') = (left.head? == some '#') := by
  cases left <;> rfl

theorem variableOfLine_eq_some_iff : variableOfLine line = some e ↔ LineSets line e := by
  rw [variableOfLine]
  constructor
  · intro h
    split at h
    · cases h
    · rename_i hcomment
      obtain ⟨⟨left, right⟩, hsplit, rfl⟩ := Option.map_eq_some_iff.mp h
      obtain ⟨hline, hleft⟩ := Text.splitFirst?_eq_some_iff.mp hsplit
      rw [hline, head?_append_equals] at hcomment
      exact .mk (hline ▸ Text.trims _ line) hleft (by simpa using hcomment) (Text.trims _ left)
        (Text.trims _ right) (Text.trims _ _) (Text.trims _ _)
  · rintro @⟨left, right, name, bare, single, text, hline, hleft, hcomment, hname, hbare, hsingle,
      htext⟩
    have hstripped : Text.stripBlanks line = left ++ '=' :: right := hline.eq
    have hcomment' : ¬(left.head? == some '#') = true := by simpa using hcomment
    have hunquote : unquote right = String.ofList text := by
      unfold unquote Text.stripBlanks Text.stripChar
      rw [hbare.eq, hsingle.eq, htext.eq]
    have hname' : Text.stripBlanks left = name := hname.eq
    simp only [hstripped, head?_append_equals, if_neg hcomment', Text.splitFirst?_append hleft,
      Option.map_some, hunquote, hname']

theorem BringAll.variables {lines : List (List Char)}
    (h : BringAll (LineBrings start) lines plain) :
    BringAll (VariableBrings start) (lines.filterMap variableOfLine) plain := by
  induction h with
  | nil => exact .nil
  | @cons line lines here rest hline _ ih =>
    cases hline with
    | nothing hno =>
      have hnone : variableOfLine line = none := by
        rw [Option.eq_none_iff_forall_ne_some]
        exact fun e he => hno e (variableOfLine_eq_some_iff.mp he)
      rw [List.filterMap_cons_none hnone]
      exact ih
    | sets hsets he =>
      rw [List.filterMap_cons_some (variableOfLine_eq_some_iff.mpr hsets)]
      exact .cons he ih

theorem VariableFileBrings.gives {file : Option String}
    (h : VariableFileBrings v start file plain) :
    ∃ layers, Gives (loadVariables v start file) layers ∧ Shown layers plain := by
  unfold loadVariables
  cases h with
  | none => exact ⟨[], gives_pure [], .nil⟩
  | empty => exact ⟨[], gives_pure [], .nil⟩
  | @missing path hmissing =>
    refine ⟨[], ?_, .nil⟩
    split
    · exact gives_pure []
    · exact gives_pure []
    · rename_i hpath
      obtain rfl := Option.some.inj hpath
      refine (gives_ask (v.kind? (Path.normalize path))).bind ?_
      rw [hmissing]
      exact gives_pure []
  | @present path text _ hne hthere hreadable hlines =>
    obtain ⟨layers, hlayers, hshown⟩ := hlines.variables.ofVariables
    refine ⟨layers, ?_, hshown⟩
    split
    · rename_i hpath
      cases hpath
    · rename_i hpath
      exact absurd (Option.some.inj hpath) hne
    · rename_i hpath
      obtain rfl := Option.some.inj hpath
      refine (gives_ask (v.kind? (Path.normalize path))).bind ?_
      obtain ⟨kind, hkind⟩ := Option.ne_none_iff_exists'.mp hthere
      rw [hkind]
      exact hreadable.gives.bind ((gives_ok hlayers).bind ((gives_tell _).bind (gives_pure _)))

/-! ### Files -/

theorem truthy_of_tree {d : Document} {value : Value} (h : d.root.tree? = some value) :
    d.truthy = value.truthy := by
  rw [Document.truthy]
  obtain ⟨hroot, -⟩ | ⟨items, vs, hroot, rfl, hvs⟩ | ⟨es, ws, hroot, rfl, hws⟩ :=
    Item.tree?_cases h
  · rw [hroot]
  · rw [hroot]
    cases items with
    | nil =>
      obtain rfl := Option.some.inj hvs
      rfl
    | cons x items =>
      obtain ⟨v, rest, -, -, rfl⟩ := Item.trees?_cons.mp hvs
      rfl
  · rw [hroot]
    cases es with
    | nil =>
      obtain rfl := Option.some.inj hws
      rfl
    | cons e es =>
      obtain ⟨v, rest, -, -, rfl⟩ := Item.entryTrees?_cons.mp hws
      rfl

theorem truthy_mapping {entries : Mapping Value} (h : entries ≠ []) :
    (Value.mapping entries).truthy = true := by
  cases entries with
  | nil => exact absurd rfl h
  | cons => rfl

theorem ValueBrings.ofOverrides {value : Value} (h : ValueBrings value plain) :
    ∃ layers, Layer.ofOverrides value = .ok layers ∧ Shown layers plain := by
  rw [Layer.ofOverrides]
  cases h with
  | nothing hfalse =>
    rw [hfalse]
    exact ⟨[], rfl, .nil⟩
  | @mapping entries hne =>
    rw [truthy_mapping hne]
    exact ⟨_, rfl, .cons (.document (Item.tree?_ofValue _)) .nil⟩

theorem ValueBrings.layerOfFile {d : Document} {value : Value} (h : ValueBrings value plain)
    (hd : d.root.tree? = some value) (path : String) :
    ∃ layer, layerOfFile path d = .ok layer ∧ Shown layer.toList plain := by
  rw [Config.layerOfFile, truthy_of_tree hd]
  cases h with
  | nothing hfalse =>
    rw [hfalse]
    exact ⟨none, rfl, .nil⟩
  | @mapping entries hne =>
    obtain ⟨es, hes⟩ : ∃ es, d.entries? = some es := by
      obtain ⟨-, hv⟩ | ⟨_, _, -, hv, -⟩ | ⟨es, ws, hroot, -, -⟩ := Item.tree?_cases hd
      · cases hv
      · cases hv
      · exact ⟨es, by rw [Document.entries?, hroot]⟩
    rw [truthy_mapping hne, hes]
    exact ⟨some (.document d), rfl, .cons (.document hd) .nil⟩

/-- If sources are loaded one after another, and each gives what it brings, then so do all. -/
theorem BringAll.gives {α : Type} {brings : α → List PlainLayer → Prop} {xs : List α}
    (h : BringAll brings xs plain) (load : α → LoadM Id (List Layer))
    (loadAll : List α → LoadM Id (List Layer)) (hnil : loadAll [] = pure [])
    (hcons : ∀ x xs, loadAll (x :: xs) =
      load x >>= fun here => loadAll xs >>= fun rest => pure (here ++ rest))
    (hload : ∀ x plain, brings x plain → ∃ layers, Gives (load x) layers ∧ Shown layers plain) :
    ∃ layers, Gives (loadAll xs) layers ∧ Shown layers plain := by
  induction h with
  | nil => exact ⟨[], hnil ▸ gives_pure [], .nil⟩
  | @cons x xs here rest hx _ ih =>
    obtain ⟨first, hfirst, hshown⟩ := hload x here hx
    obtain ⟨others, hothers, hshown'⟩ := ih
    refine ⟨first ++ others, ?_, List.rel_append hshown hshown'⟩
    rw [hcons]
    exact hfirst.bind (hothers.bind (gives_pure _))

theorem mergeSort_eq {paths found : List String} (hperm : paths.Perm found)
    (hsorted : paths.Pairwise (· ≤ ·)) : found.mergeSort (fun a b => decide (a ≤ b)) = paths :=
  List.Perm.eq_of_pairwise (fun _ _ _ _ => String.le_antisymm) (List.pairwise_mergeSort' _ found)
    hsorted ((List.mergeSort_perm found _).trans hperm.symm)

section Files

variable [YamlReader]

theorem Holds.readFormat {value : Value} (h : Holds v path value) : ∃ format text d,
    Format.ofSuffix? (Path.suffix path) = some format ∧ Readable v (Path.normalize path) text ∧
      readFormat format (Path.normalize path) text = .ok d ∧ d.root.tree? = some value := by
  cases h with
  | @json text document hsuffix hreadable hread =>
    refine ⟨.json, text, .ofValue document.toValue, ?_, hreadable, ?_, Item.tree?_ofValue _⟩
    · rw [hsuffix]
      rfl
    · rw [Config.readFormat, hread]
  | @yaml text d value hsuffix hreadable hread htree =>
    refine ⟨.yaml, text, d, ?_, hreadable, ?_, htree⟩
    · rcases hsuffix with hs | hs <;> rw [hs] <;> rfl
    · rw [Config.readFormat, hread]

theorem FileBrings.gives (h : FileBrings v path plain) :
    ∃ layers, Gives (loadFile v path) layers ∧ Shown layers plain := by
  obtain ⟨hholds, hbrings⟩ := h
  obtain ⟨format, text, d, hformat, hreadable, hread, htree⟩ := hholds.readFormat
  obtain ⟨layer, hlayer, hshown⟩ := hbrings.layerOfFile htree (Path.normalize path)
  refine ⟨layer.toList, ?_, hshown⟩
  rw [loadFile, hformat]
  refine hreadable.gives.bind ((gives_ok hread).bind ((gives_ok hlayer).bind ?_))
  cases layer with
  | none => exact gives_pure _
  | some layer => exact (gives_tell _).bind (gives_pure _)

theorem PatternBrings.gives (h : PatternBrings v pattern plain) :
    ∃ layers, Gives (loadPattern v pattern) layers ∧ Shown layers plain := by
  obtain @⟨paths, _, hne, hperm, hsorted, hfiles⟩ := h
  obtain ⟨layers, hgives, hshown⟩ :=
    hfiles.gives (loadFile v) (loadFiles v) rfl (fun _ _ => rfl) fun _ _ hfile => hfile.gives
  refine ⟨layers, (gives_ask (Glob.expand v pattern)).bind ?_, hshown⟩
  rw [mergeSort_eq hperm hsorted]
  cases paths with
  | nil => exact absurd rfl hne
  | cons => exact hgives

/-- Loading gathers what the sources bring. -/
theorem Sources.Brings.gives {s : Sources} (h : s.Brings v plain) :
    ∃ layers, Gives (gather v s) layers ∧ Shown layers plain := by
  obtain ⟨hfiles, hstored, henvironment, hoverrides⟩ := h
  obtain ⟨files, hgives, hfiles⟩ := hfiles.gives (loadPattern v) (loadPatterns v) rfl
    (fun _ _ => rfl) fun _ _ hpattern => hpattern.gives
  obtain ⟨stored, hstores, hstored⟩ := hstored.gives
  obtain ⟨environment, hvariables, henvironment⟩ := henvironment.ofVariables
  obtain ⟨overrides, hoverride, hoverrides⟩ := hoverrides.ofOverrides
  refine ⟨files ++ stored ++ environment ++ overrides, ?_, ?_⟩
  · exact hgives.bind (hstores.bind ((gives_ok hvariables).bind ((gives_ok hoverride).bind
      (gives_pure _))))
  · exact List.rel_append (List.rel_append (List.rel_append hfiles hstored) henvironment)
      hoverrides

/-- The settings are the stack of what the sources bring. -/
theorem run_of_brings {s : Sources} (h : s.Brings v plain) :
    ∃ events, run v s = (.ok (PlainLayer.stack plain), events) := by
  obtain ⟨layers, hgives, hshown⟩ := h.gives
  have hvalue : Gives (load v s) (Layer.stack layers).value := hgives.bind (gives_pure _)
  obtain ⟨events, hload⟩ := hvalue []
  refine ⟨events, ?_⟩
  rw [← value_stack hshown]
  exact hload

end Files

end PathRouting.Config
