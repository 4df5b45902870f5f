import PathRouting.Pattern.Descriptor
import PathRouting.Proofs.Pattern.Fingerprint
import PathRouting.Proofs.Pattern.Inversion

/-!
# Descriptors are read back

The text of a descriptor, in whatever layout, is read as the document that was written, and the
document tells the tree and the defaults again. So a builder that is made of a descriptor builds
what the compiled pattern builds.
-/
namespace PathRouting

open Mapping

/-! ## Texts in documents -/

theorem Json.texts?_str (texts : List String) : Json.texts? (texts.map .str) = some texts := by
  induction texts with
  | nil => rfl
  | cons text texts ih => rw [List.map_cons, Json.texts?, ih, Option.map_some]

theorem Json.namedTexts?_str (entries : List (String × String)) :
    Json.namedTexts? (entries.map fun e => (e.1, .str e.2)) = some entries := by
  induction entries with
  | nil => rfl
  | cons e entries ih => rw [List.map_cons, Json.namedTexts?, ih, Option.map_some]

/-! ## Trees -/

namespace Segment

theorem allOfJson?_allToJson (parts : List Segment) :
    allOfJson? (allToJson parts) = some parts := by
  induction parts using sequence_induction with
  | nil => rfl
  | literal text rest ih =>
    rw [allToJson, toJson, allOfJson?, ih]
    rfl
  | param name rest ih =>
    rw [allToJson, toJson, allOfJson?, ih]
    rfl
  | optional dependsOn parts rest ihp ihr =>
    have hpart : ofJson? (toJson (.optional dependsOn parts)) =
        some (.optional dependsOn parts) := by
      rw [toJson, ofJson?, Json.texts?_str, ihp]
      rfl
    rw [allToJson, allOfJson?, hpart, ihr]
    rfl

theorem allToJson_textual (parts : List Segment) : ∀ x ∈ allToJson parts, x.Textual := by
  -- a description has two or three members under different names
  have hpair : ∀ (a b : String) (x y : Json), a ≠ b → x.Textual → y.Textual →
      (Json.obj [(a, x), (b, y)]).Textual := by
    intro a b x y hab hx hy
    refine .obj (by simpa using hab) fun m hm => ?_
    simp only [List.mem_cons, List.not_mem_nil, or_false] at hm
    rcases hm with rfl | rfl
    · exact hx
    · exact hy
  induction parts using sequence_induction with
  | nil => nofun
  | literal text rest ih =>
    intro x hx
    rcases List.mem_cons.mp hx with rfl | hx
    · exact hpair _ _ _ _ (by decide) (.str _) (.str _)
    · exact ih x hx
  | param name rest ih =>
    intro x hx
    rcases List.mem_cons.mp hx with rfl | hx
    · exact hpair _ _ _ _ (by decide) (.str _) (.str _)
    · exact ih x hx
  | optional dependsOn parts rest ihp ihr =>
    intro x hx
    rcases List.mem_cons.mp hx with rfl | hx
    · refine .obj (by simp) fun m hm => ?_
      simp only [List.mem_cons, List.not_mem_nil, or_false] at hm
      rcases hm with rfl | rfl | rfl
      · exact .str _
      · exact .texts dependsOn
      · exact .arr ihp
    · exact ihr x hx

end Segment

namespace Pattern

/-! ## Whole descriptors -/

theorem Descriptor.ofJson?_toJson (d : Descriptor) : ofJson? d.toJson = some d := by
  rw [toJson, ofJson?, Json.texts?_str, Json.namedTexts?_str, Segment.allOfJson?_allToJson]
  rfl

theorem Descriptor.toJson_textual {d : Descriptor} (h : (d.defaults.map Prod.fst).Nodup) :
    d.toJson.Textual := by
  have hdefaults : (Json.obj (d.defaults.map fun e => (e.1, .str e.2))).Textual := by
    refine .obj ?_ fun m hm => ?_
    · rw [List.map_map]
      exact h
    · obtain ⟨e, -, rfl⟩ := List.mem_map.mp hm
      exact .str _
  have hbuilder : (Json.obj [("defaults", .obj (d.defaults.map fun e => (e.1, .str e.2))),
      ("segments", .arr (Segment.allToJson d.parts))]).Textual := by
    refine .obj (by simp) fun m hm => ?_
    simp only [List.mem_cons, List.not_mem_nil, or_false] at hm
    rcases hm with rfl | rfl
    · exact hdefaults
    · exact .arr (Segment.allToJson_textual d.parts)
  refine .obj (by simp) fun m hm => ?_
  simp only [List.mem_cons, List.not_mem_nil, or_false] at hm
  rcases hm with rfl | rfl | rfl | rfl
  · exact .str _
  · exact .texts d.order
  · exact .str _
  · exact hbuilder

/-- A descriptor that tells what a compiled pattern is made of, and how it builds. -/
structure Descriptor.Describes (d : Descriptor) (c : Compiled) : Prop where
  source : d.source = c.pattern.source
  order : d.order = c.matcher.order
  matcher : d.matcher = c.matcher.source
  defaults : ofTexts id d.defaults = c.defaults
  parts : d.parts = c.pattern.parts
  /-- The builder for the described tree and defaults builds the same paths. -/
  builder : ∃ b, d.builder = .ok b ∧ ∀ params, b.buildFrom params = c.builder.buildFrom params

theorem Descriptor.builder_eq (d : Descriptor) :
    d.builder = .ok ⟨⟨d.source, d.parts, none⟩, ofTexts id d.defaults⟩ := by
  have hvalues : (d.defaults.map fun e => (Value.str e.1, Value.str e.2)) =
      ofTexts id (Request.textual d.defaults) := by
    simp [ofTexts, Request.textual]
  rw [builder, Builder.ofPattern, Builder.defaultTexts, Value.entriesOrNone_mapping, hvalues,
    ← Request.mapValues_textual]
  rfl

namespace Compiled

variable {c : Compiled} {texts : List (String × String)}

/-- What is to be told about a compiled pattern with some texts as defaults. -/
def described (c : Compiled) (texts : List (String × String)) : Descriptor :=
  ⟨c.pattern.source, c.matcher.order, c.matcher.source, texts, c.pattern.parts⟩

theorem described_describes (hb : c.builder = ⟨c.pattern, ofTexts id texts⟩)
    (hd : c.defaults = ofTexts id texts) : (c.described texts).Describes c := by
  constructor
  case source => rfl
  case order => rfl
  case matcher => rfl
  case defaults => exact hd.symm
  case parts => rfl
  case builder =>
    refine ⟨_, Descriptor.builder_eq _, ?_⟩
    intro params
    rw [hb]
    rfl

theorem toJson_described (hb : c.builder = ⟨c.pattern, ofTexts id texts⟩) :
    c.toJson = .ok (c.described texts).toJson := by
  rw [toJson, builderJson, hb]
  dsimp only
  rw [Request.members_ofTexts]
  rfl

theorem ofSource_ok [CharacterNames] {file : Option String} {source : String}
    {conditions defaults : Value} {entries : List (String × Value)} (hd : defaults.Holds entries)
    (h : ofSource file source conditions defaults = .ok c) :
    ∃ texts : List (String × String), (texts.map Prod.fst).Nodup ∧
      parse file source = .ok c.pattern ∧ c.builder = ⟨c.pattern, ofTexts id texts⟩ ∧
      c.defaults = ofTexts id texts := by
  obtain ⟨p, hp, h⟩ := Regex.bind_eq_ok.mp h
  obtain ⟨conditionEntries, -, h⟩ := Regex.bind_eq_ok.mp h
  obtain ⟨defaultTexts, ht, h⟩ := Regex.bind_eq_ok.mp h
  obtain ⟨m, -, h⟩ := Regex.bind_eq_ok.mp h
  obtain rfl := Except.ok.inj h
  obtain rfl : defaultTexts = ofTexts id (entries.map fun e => (e.1, e.2.text)) := by
    have ht := Failure.ofMisuse_ok ht
    rw [Builder.defaultTexts, hd.entriesOrNone] at ht
    rw [← Except.ok.inj ht]
    simp [mapValues, ofTexts]
  refine ⟨entries.map fun e => (e.1, e.2.text), ?_, Failure.ofPattern_ok hp, rfl, rfl⟩
  rw [List.map_map]
  exact hd.distinct

/-- The text of a descriptor tells all that is needed to build paths, in every layout. -/
theorem read_toJsonText [CharacterNames] {file : Option String} {source : String}
    {conditions defaults : Value} {entries : List (String × Value)} (hd : defaults.Holds entries)
    (hc : ofSource file source conditions defaults = .ok c) (indent : Option Int) :
    ∃ text document d, c.toJsonText indent = .ok text ∧ Json.read text = .ok document ∧
      c.toJson = .ok document ∧ Descriptor.ofJson? document = some d ∧ d.Describes c ∧
      parse file source = .ok c.pattern ∧ c.pattern.source = source := by
  obtain ⟨texts, hnames, hp, hb, hdefaults⟩ := ofSource_ok hd hc
  have hjson := toJson_described hb
  have hread := Json.read_text (Descriptor.toJson_textual (d := c.described texts) hnames)
    (.ofIndent indent)
  refine ⟨_, _, c.described texts, ?_, hread, hjson, Descriptor.ofJson?_toJson _,
    described_describes hb hdefaults, hp, (parse_sound hp).1⟩
  rw [toJsonText, hjson]
  rfl

/-- Quotes, backslashes, a control character and a character beyond 16 bits, on lines without
indentation. -/
theorem read_toJsonText_escaped : ∃ c text document d,
    ofSource none "/\"\u0007😀(-<a>)" (.mapping [(.str "a", .str "\\d+")])
      (.mapping [(.str "a", .int 7), (.str "é", .null)]) = .ok c ∧
    c.toJsonText (some (-1)) = .ok text ∧ Json.read text = .ok document ∧
    Descriptor.ofJson? document = some d ∧ d.Describes c ∧
    d.source = "/\"\u0007😀(-<a>)" ∧ d.matcher = "^/\"\u0007😀(?:\\-(\\d+))?$" ∧
    d.parts = [.literal "/\"\u0007😀", .optional ["a"] [.literal "-", .param "a"]] ∧
    d.defaults.map Prod.snd = ["7", "None"] := by
  have hp : parse none "/\"\u0007😀(-<a>)" = .ok ⟨"/\"\u0007😀(-<a>)",
      [.literal "/\"\u0007😀", .optional ["a"] [.literal "-", .param "a"]], none⟩ := by rfl
  have hd : (Value.mapping [(.str "a", .int 7), (.str "é", .null)]).Holds
      [("a", .int 7), ("é", .null)] := ⟨.inr rfl, by decide⟩
  have hmade : (ofSource none "/\"\u0007😀(-<a>)" (.mapping [(.str "a", .str "\\d+")])
      (.mapping [(.str "a", .int 7), (.str "é", .null)])).toOption.map (fun c =>
        (c.matcher.source, c.defaults.map Prod.snd)) =
      some ("^/\"\u0007😀(?:\\-(\\d+))?$", ["7", "None"]) := by decide +kernel
  generalize hc : ofSource none "/\"\u0007😀(-<a>)" _ _ = result at hmade
  cases result with
  | error e => cases hmade
  | ok c =>
    obtain ⟨hmatcher, hdefaults⟩ := Prod.mk.inj (Option.some.inj hmade)
    obtain ⟨text, document, d, htext, hread, -, hof, hdescribes, hparsed, hsource⟩ :=
      read_toJsonText hd hc (some (-1))
    refine ⟨c, text, document, d, rfl, htext, hread, hof, hdescribes,
      hdescribes.source.trans hsource, hdescribes.matcher.trans hmatcher, ?_, ?_⟩
    · rw [hdescribes.parts, ← Except.ok.inj (hp.symm.trans hparsed)]
    · rw [← hdefaults, ← hdescribes.defaults, ofTexts, List.map_map]
      rfl

end Compiled

end Pattern

end PathRouting
