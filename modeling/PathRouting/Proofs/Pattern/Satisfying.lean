import PathRouting.Proofs.Pattern.Matching
import PathRouting.Proofs.Regex.Following

/-!
# Captured values satisfy their conditions

What a parameter has captured is what the expression of its condition took at some place of the
path. If that expression is self-contained, the place makes no difference.
-/
namespace PathRouting.Pattern

open Regex

variable {condition : String → Except Failure Value} {groups last : Nat} {parts : List Segment}
  {slots : List (String × Nat)} {nodes : List Node} {own : Nat → Prop} {taken : List Char}
  {c d : Cursor}

/-- No group above a number has been entered or left. -/
structure Untouched (groups : Nat) (c : Cursor) : Prop where
  starts : ∀ n, groups < n → c.starts.lookup n = none
  stops : ∀ n, groups < n → c.stops.lookup n = none

namespace Untouched

theorem start (path : List Char) : Untouched 0 (.start path) := ⟨fun _ _ => rfl, fun _ _ => rfl⟩

theorem moved (h : Untouched groups c) (hm : Moved own taken c d) (hle : groups ≤ last)
    (ho : ∀ n, own n → n ≤ last) : Untouched last d := by
  have hn : ∀ n, last < n → ¬own n := fun n hlt hown => absurd (ho n hown) (by omega)
  constructor
  · intro n hlt
    rw [hm.starts n (hn n hlt)]
    exact h.starts n (by omega)
  · intro n hlt
    rw [hm.stops n (hn n hlt)]
    exact h.stops n (by omega)

theorem fresh (h : Untouched groups c) : Fresh groups c := by
  intro n hn
  simp only [Cursor.bounds?, h.starts n hn]

end Untouched

section

variable [CharacterNames]

/-- A text that the expression of a parameter's condition took at some place. -/
inductive Took (condition : String → Except Failure Value) (name : String) :
    List Char → Prop where
  | intro {value : Value} {groups last : Nat} {body : Node} {c d : Cursor} {taken : List Char} :
      condition name = .ok value → Fills groups value body last → Untouched groups c →
      d ∈ body.ways .plain (c.enter (groups + 1)) → c.rest = taken ++ d.rest →
      Took condition name taken

/-- The group of a parameter is entered and left, and nothing behind it changes what it captured. -/
theorem Composed.took (h : Composed condition groups parts slots nodes last)
    (hc : Untouched groups c) (hd : d ∈ (Node.ofList nodes).ways .plain c) {slot : String × Nat}
    (hs : slot ∈ slots) {text : List Char} (ht : d.captured? slot.2 = some text) :
    Took condition slot.1 text := by
  induction h generalizing c d with
  | nil => cases hs
  | @literal literal groups last rest slots nodes hrest ih =>
    rw [Node.ways_ofList_append] at hd
    obtain ⟨e, he, hd⟩ := List.mem_flatMap.mp hd
    have hm : Moved (fun _ => False) literal.toList c e := moved_of_mem_literals he
    exact ih (hc.moved hm (Nat.le_refl _) fun n hn => hn.elim) hd hs ht
  | @param name value body groups middle last rest slots nodes hv hf hrest ih =>
    rw [Node.ways_ofList_cons] at hd
    obtain ⟨e, he, hd⟩ := List.mem_flatMap.mp hd
    obtain ⟨i, hi, rfl⟩ := List.mem_map.mp he
    obtain ⟨taken, hm, hcaptured⟩ := hf.captured hi
    rcases List.mem_cons.mp hs with rfl | hs
    · obtain ⟨behind, hrestm⟩ := hrest.reaches hd
      have hlt := hf.lt
      rw [hrestm.captured (by dsimp only; omega), hcaptured] at ht
      obtain rfl := Option.some.inj ht
      exact .intro hv hf hc hi hm.rest
    · exact ih (hc.moved hm (Nat.le_of_lt hf.lt) fun n hn => hn.2) hd hs ht
  | @optional dependsOn groups middle last parts rest slots slots' nodes nodes' hp hr ihp ihr =>
    rw [Node.ways_ofList_cons] at hd
    obtain ⟨e, he, hd⟩ := List.mem_flatMap.mp hd
    rw [Node.ways_optional] at he
    rcases List.mem_append.mp hs with hs | hs
    · obtain ⟨behind, hm⟩ := hr.reaches hd
      have hb := hp.slots_bound slot hs
      rw [hm.captured (by omega)] at ht
      rcases List.mem_append.mp he with he | he
      · exact ihp hc he hs ht
      · obtain rfl := List.mem_singleton.mp he
        rw [hc.fresh.captured hb.1] at ht
        cases ht
    · obtain ⟨taken, hm⟩ := hp.reaches_optional he
      exact ihr (hc.moved hm hp.le fun n hn => hn.2) hd hs ht

/-- The text that a self-contained condition took is matched by the condition alone. -/
theorem Took.matches {name source : String} {text : List Char} (h : Took condition name text)
    (hc : condition name = .ok (.str source)) (hs : isSelfContained source.toList = true) :
    ∃ e, ofChars source.toList = .ok e ∧ (e.root.matchAll .plain text).isSome = true := by
  obtain @⟨_, groups, _, _, _, _, _, hv, hf, hu, hd, htaken⟩ := h
  obtain rfl := Except.ok.inj (hv.symm.trans hc)
  cases hf with
  | @expression _ e _ he _ hcarried =>
    have hname : refersByName source.toList = true := by
      simp only [isSelfContained, he, Bool.and_eq_true] at hs
      exact hs.1.1.1.1
    rw [hcarried hname] at hd
    refine ⟨e, he, matchAll_of_mem_ways he hs ?_ ?_ hd htaken⟩
    · intro k hk
      have hne : (k == groups + 1) = false := beq_false_of_ne (Nat.ne_of_gt hk)
      rw [Cursor.enter, List.lookup_cons, hne]
      exact hu.starts k (by omega)
    · exact fun k hk => hu.stops k hk
  | listed hl => cases hl

/-- What a path gives to a parameter is matched as a whole by the condition on the parameter,
wherever the parameter stands in the tree, if the condition depends on nothing but the text that
it takes: it looks at no place and at no text around it, refers to its groups by their names, no
part of it that keeps its first way to match has another such part inside, it does not ask about
a group that is still open, and no repetition that never reconsiders captures inside. -/
theorem Matcher.run_satisfies {p : Pattern} {conditions : Value} {m : Matcher}
    (hm : Matcher.ofPattern p conditions = .ok m) {path : String}
    {found : List (String × String)} (hrun : m.run path = some found) {name text : String}
    (ht : (name, text) ∈ found) {source : String}
    (hc : conditionOf conditions name = .ok (.str source))
    (hs : isSelfContained source.toList = true) :
    ∃ e, ofChars source.toList = .ok e ∧ (e.root.matchAll .plain text.toList).isSome = true := by
  obtain ⟨-, nodes, last, hcomposed, hroot, -⟩ := Matcher.ofPattern_ok hm
  have hfound : (m.root.matchAll .plain path.toList).map (capturedBy m.slots) = some found := hrun
  rw [hroot, wholeNode_matchAll] at hfound
  obtain ⟨d, hd, rfl⟩ := Option.map_eq_some_iff.mp hfound
  obtain ⟨slot, hslot, he⟩ := List.mem_filterMap.mp ht
  obtain ⟨taken, hcaptured, he⟩ := Option.map_eq_some_iff.mp he
  obtain ⟨rfl, rfl⟩ := Prod.mk.inj he
  rw [String.toList_ofList]
  exact (hcomposed.took (.start path.toList) (List.mem_of_find?_eq_some hd) hslot hcaptured).matches
    hc hs

end

/-- Behind another parameter with groups of its own, a condition with a group, a reference to it, a
choice by it, and parts that keep their first ways. -/
theorem Matcher.run_satisfies_behind : ∃ m,
    Matcher.ofPattern
        ⟨"/<a>/<b>c", [.literal "/", .param "a", .literal "/", .param "b", .literal "c"], none⟩
        (.mapping [(.str "a", .str "(x)?(y)"),
          (.str "b", .str "(?P<q>a|b)?(?P=q)(?(q)(?>cd|c)|z)e*+")]) = .ok m ∧
      m.run "/y/aacdeec" = some [("a", "y"), ("b", "aacdee")] ∧
      isSelfContained "(?P<q>a|b)?(?P=q)(?(q)(?>cd|c)|z)e*+".toList = true ∧
      ∃ e, ofChars "(?P<q>a|b)?(?P=q)(?(q)(?>cd|c)|z)e*+".toList = .ok e ∧
        (e.root.matchAll .plain "aacdee".toList).isSome = true := by
  have hs : isSelfContained "(?P<q>a|b)?(?P=q)(?(q)(?>cd|c)|z)e*+".toList = true := by
    decide +kernel
  have hmade : ((Matcher.ofPattern
      ⟨"/<a>/<b>c", [.literal "/", .param "a", .literal "/", .param "b", .literal "c"], none⟩
      (.mapping [(.str "a", .str "(x)?(y)"),
        (.str "b", .str "(?P<q>a|b)?(?P=q)(?(q)(?>cd|c)|z)e*+")])).toOption.bind fun m =>
      m.run "/y/aacdeec") = some [("a", "y"), ("b", "aacdee")] := by decide +kernel
  generalize hm : Matcher.ofPattern _ _ = result at hmade
  cases result with
  | error e => cases hmade
  | ok m => exact ⟨m, rfl, hmade, hs, Matcher.run_satisfies hm hmade (.tail _ (.head _)) rfl hs⟩

/-- A reference by number goes to a group of another parameter, and a part that keeps its first way
inside another one may lose a way on the value alone that leads on in the path. -/
theorem Matcher.run_contradicts : ∃ m b c,
    Matcher.ofPattern
        ⟨"/<a>/<b>/<c>d", [.literal "/", .param "a", .literal "/", .param "b", .literal "/",
          .param "c", .literal "d"], none⟩
        (.mapping [(.str "b", .str "(y)\\1"), (.str "c", .str "(?>(?>abcd|a)bc|ab)c")]) = .ok m ∧
      m.run "/q/yq/abcd" = some [("a", "q"), ("b", "yq"), ("c", "abc")] ∧
      ofChars "(y)\\1".toList = .ok b ∧ b.root.looksAround = false ∧
        b.root.matchAll .plain "yq".toList = none ∧
      ofChars "(?>(?>abcd|a)bc|ab)c".toList = .ok c ∧ c.root.looksAround = false ∧
        c.root.matchAll .plain "abc".toList = none := by
  have hmade : ((Matcher.ofPattern
      ⟨"/<a>/<b>/<c>d", [.literal "/", .param "a", .literal "/", .param "b", .literal "/",
        .param "c", .literal "d"], none⟩
      (.mapping [(.str "b", .str "(y)\\1"),
        (.str "c", .str "(?>(?>abcd|a)bc|ab)c")])).toOption.bind fun m =>
      m.run "/q/yq/abcd") = some [("a", "q"), ("b", "yq"), ("c", "abc")] := by decide +kernel
  have hb : (ofChars "(y)\\1".toList).toOption.map (fun e => (e.root.looksAround,
      e.root.matchAll .plain "yq".toList)) = some (false, none) := by decide +kernel
  have hc : (ofChars "(?>(?>abcd|a)bc|ab)c".toList).toOption.map (fun e => (e.root.looksAround,
      e.root.matchAll .plain "abc".toList)) = some (false, none) := by decide +kernel
  generalize Matcher.ofPattern _ _ = result at hmade
  generalize ofChars "(y)\\1".toList = rb at hb
  generalize ofChars "(?>(?>abcd|a)bc|ab)c".toList = rc at hc
  cases result with
  | error e => cases hmade
  | ok m =>
    cases rb with
    | error e => cases hb
    | ok b =>
      cases rc with
      | error e => cases hc
      | ok c =>
        obtain ⟨hlookb, hrunb⟩ := Prod.mk.inj (Option.some.inj hb)
        obtain ⟨hlookc, hrunc⟩ := Prod.mk.inj (Option.some.inj hc)
        exact ⟨m, b, c, rfl, hmade, rfl, hlookb, hrunb, rfl, hlookc, hrunc⟩

end PathRouting.Pattern
