import PathRouting.Proofs.Regex.Carrying
import PathRouting.Proofs.Regex.Moves

/-!
# Matching a piece of a text

Within a longer text and a larger expression, a self-contained expression goes through the places
that it goes through on the piece of text alone, and through others that lie behind the piece.
Where some part keeps its first way to match, that may lie behind the piece, so places can be lost.
-/
namespace PathRouting.Regex

variable {n : Nat} {base tail : List Char} {c d : Cursor}

/-- A place in a text and the same place in a piece of the text that stands behind `base` and
before `tail`. Groups are numbered onwards by a distance. -/
structure Excerpt (n : Nat) (base tail : List Char) (c d : Cursor) : Prop where
  before : c.before = d.before ++ base
  rest : c.rest = d.rest ++ tail
  starts : ∀ k, 0 < k → c.starts.lookup (k + n) = (d.starts.lookup k).map (· + base.length)
  stops : ∀ k, c.stops.lookup (k + n) = (d.stops.lookup k).map (· + base.length)
  whole : d.stops.lookup 0 = none
  inside : ∀ k stop, d.stops.lookup k = some stop → stop ≤ d.text.length

def Beyond (tail : List Char) (c : Cursor) : Prop := c.rest.length < tail.length

theorem Reaches.beyond {own : Nat → Prop} (h : Reaches own c d) (hc : Beyond tail c) :
    Beyond tail d := by
  obtain ⟨taken, hm⟩ := h
  rw [Beyond, hm.rest, List.length_append] at hc
  exact Nat.lt_of_le_of_lt (Nat.le_add_left ..) hc

namespace Excerpt

theorem position (h : Excerpt n base tail c d) : c.position = d.position + base.length := by
  rw [Cursor.position, h.before, List.length_append]
  rfl

theorem bounds (h : Excerpt n base tail c d) (k : Nat) :
    c.bounds? (k + n) = (d.bounds? k).map fun b => (b.1 + base.length, b.2 + base.length) := by
  rcases Nat.eq_zero_or_pos k with rfl | hk
  · have hstops : c.stops.lookup n = none := by simpa [h.whole] using h.stops 0
    rw [Nat.zero_add, Cursor.bounds?, Cursor.bounds?, hstops, h.whole]
    cases c.starts.lookup n <;> cases d.starts.lookup 0 <;> rfl
  · rw [Cursor.bounds?, Cursor.bounds?, h.starts k hk, h.stops k]
    cases d.starts.lookup k with
    | none => rfl
    | some start =>
      cases d.stops.lookup k with
      | none => rfl
      | some stop =>
        simp only [Option.map_some, Nat.add_le_add_iff_right]
        split <;> rfl

theorem text (h : Excerpt n base tail c d) : c.text = base.reverse ++ (d.text ++ tail) := by
  simp [Cursor.text, h.before, h.rest]

theorem captured (h : Excerpt n base tail c d) (k : Nat) :
    c.captured? (k + n) = d.captured? k := by
  rw [Cursor.captured?, Cursor.captured?, h.bounds, Option.map_map]
  cases hb : d.bounds? k with
  | none => rfl
  | some b =>
    obtain ⟨start, stop⟩ := b
    have hstop : d.stops.lookup k = some stop ∧ start ≤ stop := by
      rw [Cursor.bounds?] at hb
      split at hb
      · split_ifs at hb with hle
        cases hb
        exact ⟨‹_›, hle⟩
      · cases hb
    have hin := h.inside k stop hstop.1
    have hlen : base.length = base.reverse.length := by simp
    simp only [Option.map_some, Function.comp_apply, Option.some.injEq, h.text]
    rw [hlen, Nat.add_comm start, List.drop_length_add_append, Nat.add_comm stop,
      Nat.add_sub_add_left, List.drop_append_of_le_length (by omega),
      List.take_append_of_le_length (by simp; omega)]

theorem of_rest_cons {x : Char} {rest : List Char} (h : Excerpt n base tail c d)
    (hd : d.rest = x :: rest) :
    Excerpt n base tail { c with before := x :: c.before, rest := rest ++ tail }
      { d with before := x :: d.before, rest := rest } := by
  refine ⟨congrArg (x :: ·) h.before, rfl, h.starts, h.stops, h.whole, ?_⟩
  intro k stop hk
  have hin := h.inside k stop hk
  simpa [Cursor.text, hd] using hin

theorem enter (h : Excerpt n base tail c d) (k : Nat) :
    Excerpt n base tail (c.enter (k + n)) (d.enter k) := by
  refine ⟨h.before, h.rest, ?_, h.stops, h.whole, h.inside⟩
  intro m hm
  have hb : (m + n == k + n) = (m == k) := by simp [Bool.beq_eq_decide_eq]
  simp only [Cursor.enter, List.lookup_cons, h.position, h.starts m hm, hb]
  cases m == k <;> rfl

theorem leave (h : Excerpt n base tail c d) {k : Nat} (hk : 0 < k) :
    Excerpt n base tail (c.leave (k + n)) (d.leave k) := by
  have hne : (0 == k) = false := by simpa using Nat.ne_of_lt hk
  refine ⟨h.before, h.rest, h.starts, ?_, ?_, ?_⟩
  · intro m
    have hb : (m + n == k + n) = (m == k) := by simp [Bool.beq_eq_decide_eq]
    simp only [Cursor.leave, List.lookup_cons, h.position, h.stops m, hb]
    cases m == k <;> rfl
  · simp only [Cursor.leave, List.lookup_cons, hne, h.whole]
  · intro m stop hm
    simp only [Cursor.leave, List.lookup_cons] at hm
    split at hm
    · obtain rfl := Option.some.inj hm
      simp [Cursor.leave, Cursor.text, Cursor.position]
    · exact h.inside m stop hm

end Excerpt

/-- Places in a text and places in the piece, in the same order: among the former there are also
places behind the piece, and among the latter, unless nothing is lost, places that are not gone
through. -/
inductive Follows (n : Nat) (base tail : List Char) (exact : Prop) :
    List Cursor → List Cursor → Prop where
  | nil : Follows n base tail exact [] []
  | both {c d : Cursor} {cs ds : List Cursor} :
      Excerpt n base tail c d → Follows n base tail exact cs ds →
      Follows n base tail exact (c :: cs) (d :: ds)
  | beyond {c : Cursor} {cs ds : List Cursor} :
      Beyond tail c → Follows n base tail exact cs ds → Follows n base tail exact (c :: cs) ds
  | lost {cs ds : List Cursor} (d : Cursor) :
      ¬exact → Follows n base tail exact cs ds → Follows n base tail exact cs (d :: ds)

namespace Follows

variable {exact : Prop} {cs cs' ds ds' : List Cursor} {w v : Walk}

theorem single (h : Excerpt n base tail c d) : Follows n base tail exact [c] [d] := .both h .nil

theorem append (h : Follows n base tail exact cs ds) (h' : Follows n base tail exact cs' ds') :
    Follows n base tail exact (cs ++ cs') (ds ++ ds') := by
  induction h with
  | nil => exact h'
  | both he _ ih => exact .both he ih
  | beyond hb _ ih => exact .beyond hb ih
  | lost d hn _ ih => exact .lost d hn ih

theorem allBeyond (h : ∀ c ∈ cs, Beyond tail c) : Follows n base tail exact cs [] := by
  induction cs with
  | nil => exact .nil
  | cons c cs ih =>
    exact .beyond (h c (.head _)) (ih fun e he => h e (.tail _ he))

theorem allLost (hn : ¬exact) (ds : List Cursor) : Follows n base tail exact [] ds := by
  induction ds with
  | nil => exact .nil
  | cons d ds ih => exact .lost d hn ih

/-- Walks on from places and from their images. Nothing leads back from behind the piece. -/
theorem flatMap {own : Nat → Prop} (h : Follows n base tail exact cs ds) (hw : w.Keeps own)
    (hwv : ∀ c ∈ cs, ∀ d ∈ ds, Excerpt n base tail c d →
      Follows n base tail exact (w c) (v d)) :
    Follows n base tail exact (cs.flatMap w) (ds.flatMap v) := by
  induction h with
  | nil => exact .nil
  | both he _ ih =>
    exact (hwv _ (.head _) _ (.head _) he).append
      (ih fun c hc d hd => hwv c (.tail _ hc) d (.tail _ hd))
  | @beyond c cs ds hb _ ih =>
    have hc : Follows n base tail exact (w c) [] := allBeyond fun e he => (hw c e he).beyond hb
    exact hc.append (ih fun c hc d hd => hwv c (.tail _ hc) d hd)
  | lost d hn _ ih =>
    exact (allLost hn (v d)).append (ih fun c hc d hd => hwv c hc d (.tail _ hd))

theorem map (h : Follows n base tail exact cs ds) {f g : Cursor → Cursor}
    (hb : ∀ c, Beyond tail c → Beyond tail (f c))
    (he : ∀ c d, Excerpt n base tail c d → Excerpt n base tail (f c) (g d)) :
    Follows n base tail exact (cs.map f) (ds.map g) := by
  induction h with
  | nil => exact .nil
  | both hcd _ ih => exact .both (he _ _ hcd) ih
  | beyond hc _ ih => exact .beyond (hb _ hc) ih
  | lost d hn _ ih => exact .lost _ hn ih

theorem mem (h : Follows n base tail exact cs ds) (hc : c ∈ cs) :
    Beyond tail c ∨ ∃ d ∈ ds, Excerpt n base tail c d := by
  induction h with
  | nil => cases hc
  | both he _ ih =>
    rcases List.mem_cons.mp hc with rfl | hc
    · exact .inr ⟨_, .head _, he⟩
    · exact (ih hc).imp_right fun ⟨d, hd, he⟩ => ⟨d, .tail _ hd, he⟩
  | beyond hb _ ih =>
    rcases List.mem_cons.mp hc with rfl | hc
    · exact .inl hb
    · exact ih hc
  | lost d _ _ ih => exact (ih hc).imp_right fun ⟨e, hd, he⟩ => ⟨e, .tail _ hd, he⟩

end Follows

end PathRouting.Regex
