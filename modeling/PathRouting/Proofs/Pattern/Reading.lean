import PathRouting.Pattern.Parser
import PathRouting.Proofs.Pattern.Scanning

/-!
# Pattern texts and canonical trees

Reading a pattern and writing a canonical tree undo each other. One direction is an invariant
of the reader: what was read is canonical and is written as the characters that were taken. The
other follows a canonical tree through the reader.
-/
namespace PathRouting

open Pattern

namespace Segment

theorem allCanonical_iff {parts : List Segment} :
    allCanonical parts = true ↔ (∀ x ∈ parts, isCanonical x = true) ∧
      parts.IsChain fun x y => ¬(startsLiterally [x] = true ∧ startsLiterally [y] = true) := by
  induction parts with
  | nil => simp [allCanonical]
  | cons x rest ih =>
    cases rest with
    | nil => simp [allCanonical, startsLiterally]
    | cons y rest =>
      have hy : startsLiterally (y :: rest) = startsLiterally [y] := by
        cases y <;> rfl
      simp only [allCanonical.eq_2 x, Bool.and_eq_true, ih, hy, List.isChain_cons_cons,
        List.forall_mem_cons, Bool.not_eq_true', Bool.and_eq_false_iff, not_and_or,
        Bool.not_eq_true]
      tauto

theorem allCanonical_reverse (parts : List Segment) :
    allCanonical parts.reverse = allCanonical parts := by
  rw [Bool.eq_iff_iff, allCanonical_iff, allCanonical_iff, List.isChain_reverse]
  simp only [List.mem_reverse, and_comm]

theorem directNames_foldl (parts : List Segment) (names : List String) :
    parts.foldl (fun names part =>
      match part with
      | .param name => if names.contains name then names else names ++ [name]
      | _ => names) names =
    names ++ ((parts.filterMap paramName?).filter fun n => !names.contains n).eraseDups := by
  induction parts generalizing names with
  | nil => simp
  | cons x parts ih =>
    cases x with
    | literal text =>
      rw [List.foldl_cons, List.filterMap_cons_none (by rfl)]
      exact ih names
    | optional dependsOn inner =>
      rw [List.foldl_cons, List.filterMap_cons_none (by rfl)]
      exact ih names
    | param name =>
      rw [List.foldl_cons, List.filterMap_cons_some (b := name) (by rfl)]
      by_cases h : names.contains name = true
      · simp only [h, if_true, ih]
        simp [show name ∈ names by simpa using h]
      · have hf : (fun n => !(names ++ [name]).contains n) =
            fun n => (!n == name) && !names.contains n := by
          funext n
          by_cases hn : n = name <;> simp [hn]
        have hn : name ∉ names := by simpa using h
        simp only [h, Bool.false_eq_true, if_false, ih, hf, ← List.filter_filter]
        simp [hn, List.eraseDups_cons]

theorem directNames_eq (parts : List Segment) :
    directNames parts = (parts.filterMap paramName?).eraseDups := by
  have h := directNames_foldl parts []
  rw [List.nil_append, List.filter_eq_self.mpr (by simp)] at h
  exact h

theorem startsLiterally_eq_false_iff {parts : List Segment} :
    startsLiterally parts = false ↔ ∀ other, parts.head? ≠ some (.literal other) := by
  cases parts with
  | nil => simp [startsLiterally]
  | cons x rest => cases x <;> simp [startsLiterally]

theorem isLiteralRun_iff {text : List Char} :
    isLiteralRun text = true ↔ text ≠ [] ∧ groupOpen ∉ text ∧ groupClose ∉ text ∧
      ∀ before name after, isName name = true →
        text ≠ before ++ placeholderOpen :: (name ++ placeholderClose :: after) := by
  have hp : holdsPlaceholder text = false ↔ ∀ before name after, isName name = true →
      text ≠ before ++ placeholderOpen :: (name ++ placeholderClose :: after) := by
    rw [Bool.eq_false_iff, ne_eq, holdsPlaceholder_iff]
    simp only [not_exists, not_and, ne_eq]
  simp [isLiteralRun, hp, and_assoc]

theorem canonical_iff {parts : List Segment} : Canonical parts ↔ allCanonical parts = true := by
  constructor
  · intro h
    induction h with
    | nil => rfl
    | literal hne ho hc hp hapart _ ih =>
      simp [allCanonical, isCanonical, isLiteralRun_iff.mpr ⟨hne, ho, hc, hp⟩,
        startsLiterally_eq_false_iff.mpr hapart, ih]
    | param hn _ ih => simp [allCanonical, isCanonical, startsLiterally, hn, ih]
    | optional hd _ _ ihParts ih =>
      simp [allCanonical, isCanonical, startsLiterally, directNames_eq, hd, ihParts, ih]
  · induction parts using sequence_induction with
    | nil => exact fun _ => .nil
    | literal text rest ih =>
      intro h
      simp only [allCanonical, isCanonical, Bool.and_eq_true, Bool.not_eq_true'] at h
      obtain ⟨hne, ho, hc, hp⟩ := isLiteralRun_iff.mp h.1.1
      have hapart : startsLiterally rest = false := by simpa [startsLiterally] using h.1.2
      exact .literal hne ho hc hp (startsLiterally_eq_false_iff.mp hapart) (ih h.2)
    | param name rest ih =>
      intro h
      simp only [allCanonical, isCanonical, Bool.and_eq_true] at h
      exact .param h.1.1 (ih h.2)
    | optional dependsOn parts rest ihParts ih =>
      intro h
      simp only [allCanonical, isCanonical, Bool.and_eq_true, beq_iff_eq] at h
      exact .optional (h.1.1.1.trans (directNames_eq parts)) (ihParts h.1.1.2) (ih h.2)

end Segment

namespace Pattern

open Segment

def Frame.text (f : Frame) : List Char := renderAll f.before.reverse ++ [groupOpen]

namespace Reading

def text (r : Reading) : List Char := r.frames.reverse.flatMap Frame.text ++ r.inner.text

structure Sound (r : Reading) : Prop where
  frames_canonical : ∀ f ∈ r.frames, allCanonical f.before = true
  inner_sound : r.inner.Sound

theorem sound_start : Sound start := ⟨by simp [start], Scan.sound_empty⟩

theorem openGroup_sound {r : Reading} (h : r.Sound) : r.openGroup.Sound := by
  refine ⟨?_, Scan.sound_empty⟩
  intro f hf
  rcases List.mem_cons.mp hf with rfl | hf
  · exact h.inner_sound.finish_canonical
  · exact h.frames_canonical f hf

theorem openGroup_text (r : Reading) : r.openGroup.text = r.text ++ [groupOpen] := by
  have he : Scan.empty.text = [] := Scan.text_of_done []
  simp [text, openGroup, Frame.text, Scan.finish_text, he]

theorem closeGroup_text {r r' : Reading} (hc : r.closeGroup? = some r') :
    r'.text = r.text ++ [groupClose] := by
  unfold closeGroup? at hc
  split at hc
  · simp at hc
  · rename_i frame frames hf
    obtain rfl := Option.some.inj hc
    have ht := Scan.finish_text r.inner
    simp only [text, hf, Scan.text_of_done]
    simp [Frame.text, renderAll, render, group, ht]

theorem closeGroup_sound {r r' : Reading} (h : r.Sound) (hc : r.closeGroup? = some r') :
    r'.Sound := by
  unfold closeGroup? at hc
  split at hc
  · simp at hc
  · rename_i frame frames hf
    obtain rfl := Option.some.inj hc
    have hbody := h.inner_sound.finish_canonical
    have hbefore := h.frames_canonical frame (by simp [hf])
    refine ⟨?_, Scan.sound_of_done ?_ rfl⟩
    · intro f hm
      exact h.frames_canonical f (by simp [hf, show f ∈ frames from hm])
    · simp [allCanonical, group, isCanonical, startsLiterally, allCanonical_reverse, hbody,
        hbefore]

theorem push_sound {r r' : Reading} {c : Char} (h : r.Sound) (hp : r.push? c = some r') :
    r'.Sound ∧ r'.text = r.text ++ [c] := by
  unfold push? at hp
  split at hp
  · rename_i hc
    obtain rfl := Option.some.inj hp
    rw [beq_iff_eq.mp hc]
    exact ⟨openGroup_sound h, openGroup_text r⟩
  · split at hp
    · rename_i hc
      rw [beq_iff_eq.mp hc]
      exact ⟨closeGroup_sound h hp, closeGroup_text hp⟩
    · rename_i ho hc
      obtain rfl := Option.some.inj hp
      refine ⟨⟨h.frames_canonical, Scan.push_sound h.inner_sound ?_ ?_⟩, ?_⟩
      · simpa using ho
      · simpa using hc
      · simp [text, Scan.push_text]

theorem pushAll_sound {cs : List Char} {r r' : Reading} (h : r.Sound)
    (hp : r.pushAll cs = .ok r') : r'.Sound ∧ r'.text = r.text ++ cs := by
  induction cs generalizing r with
  | nil =>
    obtain rfl := Except.ok.inj hp
    exact ⟨h, by simp⟩
  | cons c cs ih =>
    simp only [pushAll] at hp
    split at hp
    · rename_i r₁ hr
      obtain ⟨hs, ht⟩ := push_sound h hr
      obtain ⟨hs', ht'⟩ := ih hs hp
      exact ⟨hs', by rw [ht', ht, List.append_assoc, List.singleton_append]⟩
    · cases hp

theorem pushAll_append (r : Reading) (cs ds : List Char) :
    r.pushAll (cs ++ ds) = (r.pushAll cs).bind fun r' => r'.pushAll ds := by
  induction cs generalizing r with
  | nil => rfl
  | cons c cs ih =>
    simp only [List.cons_append, pushAll]
    split
    · exact ih _
    · rfl

theorem pushAll_scan {cs : List Char} (ho : groupOpen ∉ cs) (hc : groupClose ∉ cs)
    (r : Reading) :
    r.pushAll cs = .ok ⟨r.frames, cs.foldl Scan.push r.inner, r.position + cs.length⟩ := by
  induction cs generalizing r with
  | nil => rfl
  | cons c cs ih =>
    rw [List.mem_cons, not_or] at ho hc
    have hp : r.push? c = some ⟨r.frames, r.inner.push c, r.position + 1⟩ := by
      simp [push?, Ne.symm ho.1, Ne.symm hc.1]
    simp only [pushAll, hp]
    rw [ih ho.2 hc.2]
    simp [Nat.add_assoc, Nat.add_comm 1]

/-- The text of a part is read behind what was read before, at the same level. Behind a literal
run nothing is decided yet. -/
def ReadsPart (r : Reading) (x : Segment) : Prop :=
  ∃ r', r.pushAll (render x) = .ok r' ∧ r'.frames = r.frames ∧
    r'.inner.finish = x :: r.inner.finish ∧
    (startsLiterally [x] = false → r'.inner.pending = [])

/-- The text of a sequence is read behind what was read before, at the same level. -/
def ReadsParts (r : Reading) (parts : List Segment) : Prop :=
  ∃ r', r.pushAll (renderAll parts) = .ok r' ∧ r'.frames = r.frames ∧
    r'.inner.finish = parts.reverse ++ r.inner.finish

theorem reads_literal {r : Reading} (hs : r.Sound) (hp : r.inner.pending = []) {text : String}
    (hl : isLiteralRun text.toList = true) : r.ReadsPart (.literal text) := by
  simp only [isLiteralRun, Bool.and_eq_true, Bool.not_eq_true', List.isEmpty_eq_false_iff,
    List.contains_eq_mem, decide_eq_false_iff_not] at hl
  obtain ⟨⟨⟨hne, ho⟩, hc⟩, hh⟩ := hl
  obtain ⟨hd, hq⟩ := Scan.foldl_push_literal hs.inner_sound ho hc (by rwa [hp, List.nil_append])
  rw [hp, List.nil_append] at hq
  refine ⟨_, pushAll_scan ho hc r, rfl, ?_, by simp [startsLiterally]⟩
  rw [Scan.finish_of_pending_ne (by rwa [hq]), hq, hd, Scan.finish_of_pending hp,
    String.ofList_toList]

theorem reads_param (r : Reading) {name : String} (hn : isName name.toList = true) :
    r.ReadsPart (.param name) := by
  have hall := all_isNameChar_of_isName hn
  have hfree : ∀ c, isNameChar c = false → c ≠ placeholderOpen → c ≠ placeholderClose →
      c ∉ render (.param name) := by
    intro c hc ho hp hm
    simp only [render, List.mem_cons, List.mem_append, List.not_mem_nil, or_false] at hm
    rcases hm with h | h | h
    · exact ho h
    · exact absurd (hall c h) (by simp [hc])
    · exact hp h
  have hscan := pushAll_scan (hfree groupOpen (by decide) (by decide) (by decide))
    (hfree groupClose (by decide) (by decide) (by decide)) r
  have hpush := Scan.foldl_push_param r.inner hn
  rw [String.ofList_toList] at hpush
  rw [show (render (.param name)).foldl Scan.push r.inner = _ from hpush] at hscan
  exact ⟨_, hscan, rfl, Scan.finish_of_pending rfl, fun _ => rfl⟩

theorem reads_group {r : Reading} {parts : List Segment} (h : r.openGroup.ReadsParts parts) :
    r.ReadsPart (group parts) := by
  obtain ⟨r₁, h₁, hf, hi⟩ := h
  have hopen : r.push? groupOpen = some r.openGroup := rfl
  have hbody : r₁.inner.finish.reverse = parts := by
    rw [hi, show r.openGroup.inner.finish = [] from rfl]
    simp
  have hclose : r₁.push? groupClose =
      some ⟨r.frames, ⟨group parts :: r.inner.finish, [], none⟩, r₁.position + 1⟩ := by
    have hne : (groupClose == groupOpen) = false := by decide
    simp [push?, hne, closeGroup?, hf, openGroup, hbody]
  refine ⟨⟨r.frames, ⟨group parts :: r.inner.finish, [], none⟩, r₁.position + 1⟩, ?_, rfl,
    Scan.finish_of_pending rfl, fun _ => rfl⟩
  simp only [render, group, pushAll, hopen]
  rw [pushAll_append, h₁]
  simp only [Except.bind, pushAll, hclose, group]

theorem reads_cons {r : Reading} (hs : r.Sound) {x : Segment} {rest : List Segment}
    (hx : r.ReadsPart x) (hapart : startsLiterally [x] = true → startsLiterally rest = false)
    (ih : ∀ r' : Reading, r'.Sound → (startsLiterally rest = true → r'.inner.pending = []) →
      r'.ReadsParts rest) : r.ReadsParts (x :: rest) := by
  obtain ⟨r₁, h₁, hf₁, hi₁, hp₁⟩ := hx
  have hstart : startsLiterally rest = true → r₁.inner.pending = [] := by
    intro hr
    apply hp₁
    rw [Bool.eq_false_iff]
    intro hl
    simp [hapart hl] at hr
  obtain ⟨r₂, h₂, hf₂, hi₂⟩ := ih r₁ (pushAll_sound hs h₁).1 hstart
  refine ⟨r₂, ?_, hf₂.trans hf₁, ?_⟩
  · rw [renderAll, pushAll_append, h₁]
    exact h₂
  · rw [hi₂, hi₁]
    simp

theorem reads_canonical (parts : List Segment) : allCanonical parts = true → ∀ r : Reading,
    r.Sound → (startsLiterally parts = true → r.inner.pending = []) → r.ReadsParts parts := by
  induction parts using sequence_induction with
  | nil =>
    intro _ r _ _
    exact ⟨r, rfl, rfl, rfl⟩
  | literal text rest ih =>
    intro hc r hs hp
    simp only [allCanonical, isCanonical, Bool.and_eq_true, Bool.not_eq_true'] at hc
    refine reads_cons hs (reads_literal hs (hp rfl) hc.1.1) ?_ (ih hc.2)
    intro _
    simpa [startsLiterally] using hc.1.2
  | param name rest ih =>
    intro hc r hs _
    simp only [allCanonical, isCanonical, Bool.and_eq_true] at hc
    exact reads_cons hs (reads_param r hc.1.1) (by simp [startsLiterally]) (ih hc.2)
  | optional dependsOn parts rest ihParts ih =>
    intro hc r hs _
    simp only [allCanonical, isCanonical, Bool.and_eq_true, beq_iff_eq] at hc
    obtain ⟨⟨⟨rfl, hparts⟩, -⟩, hrest⟩ := hc
    have hbody := ihParts hparts r.openGroup (openGroup_sound hs) fun _ => rfl
    exact reads_cons hs (reads_group hbody) (by simp [startsLiterally]) (ih hrest)

end Reading

/-- A pattern text that is accepted is what its tree is written as, and the tree is
canonical. -/
theorem readParts_sound {file : Option String} {source : String} {parts : List Segment}
    (h : readParts file source = .ok parts) :
    renderAll parts = source.toList ∧ allCanonical parts = true := by
  unfold readParts at h
  split at h
  · cases h
  · rename_i r hr
    split at h
    · cases h
    · rename_i ho
      obtain rfl := Except.ok.inj h
      obtain ⟨hs, ht⟩ := Reading.pushAll_sound Reading.sound_start hr
      have hf : r.frames = [] := by simpa [Reading.outermost?] using ho
      rw [allCanonical_reverse, Scan.finish_text]
      refine ⟨?_, hs.inner_sound.finish_canonical⟩
      have he : Scan.empty.text = [] := Scan.text_of_done []
      simpa [Reading.text, hf, Reading.start, he] using ht

theorem readParts_render (file : Option String) {parts : List Segment}
    (h : allCanonical parts = true) :
    readParts file (String.ofList (renderAll parts)) = .ok parts := by
  obtain ⟨r, hr, hf, hi⟩ :=
    Reading.reads_canonical parts h .start Reading.sound_start fun _ => rfl
  have hframes : r.frames = [] := hf
  have hparts : r.inner.finish.reverse = parts := by
    rw [hi, show Reading.start.inner.finish = [] from rfl]
    simp
  simp [readParts, hr, Reading.outermost?, hframes, hparts]

theorem parse_sound {file : Option String} {source : String} {p : Pattern}
    (h : parse file source = .ok p) : p.source = source ∧ p.file = file ∧
      renderAll p.parts = source.toList ∧ Canonical p.parts := by
  cases hr : readParts file source with
  | error e => simp [parse, hr, Except.map] at h
  | ok parts =>
    simp only [parse, hr, Except.map, Except.ok.injEq] at h
    subst h
    obtain ⟨ht, hc⟩ := readParts_sound hr
    exact ⟨rfl, rfl, ht, canonical_iff.mpr hc⟩

theorem parse_of_canonical {source : String} {parts : List Segment} (file : Option String)
    (ht : renderAll parts = source.toList) (hc : Canonical parts) :
    parse file source = .ok ⟨source, parts, file⟩ := by
  have hr := readParts_render file (canonical_iff.mp hc)
  rw [ht, String.ofList_toList] at hr
  rw [parse, hr]
  rfl

/-- A group that is written behind a pattern text becomes the last part of the tree. It closes what
it opens, so where the text is refused it is refused as before. -/
theorem parse_append_group (file : Option String) (source : String) {parts : List Segment}
    (hc : Canonical parts) : parse file (source ++ String.ofList (render (group parts))) =
      (parse file source).map fun p =>
        ⟨source ++ String.ofList (render (group parts)), p.parts ++ [group parts], file⟩ := by
  cases hr : Reading.start.pushAll source.toList with
  | error position => simp [parse, readParts, Reading.pushAll_append, hr, Except.bind, Except.map]
  | ok r =>
    obtain ⟨hs, -⟩ := Reading.pushAll_sound Reading.sound_start hr
    have hbody := Reading.reads_canonical parts (canonical_iff.mp hc) r.openGroup
      (Reading.openGroup_sound hs) fun _ => rfl
    obtain ⟨r', hr', hframes, hinner, -⟩ := Reading.reads_group hbody
    have houtermost : r'.outermost? = r.outermost? := by
      rw [Reading.outermost?, hframes]
      rfl
    cases hf : r.outermost? <;>
      simp [parse, readParts, Reading.pushAll_append, hr, hr', houtermost, hf, hinner, Except.bind,
        Except.map]

/-- Reading a pattern text and writing a canonical tree undo each other. -/
theorem parse_eq_ok_iff {file : Option String} {source : String} {p : Pattern} :
    parse file source = .ok p ↔ p.source = source ∧ p.file = file ∧
      renderAll p.parts = source.toList ∧ Canonical p.parts := by
  constructor
  · exact parse_sound
  · rintro ⟨rfl, rfl, ht, hc⟩
    exact parse_of_canonical _ ht hc

end Pattern

end PathRouting
