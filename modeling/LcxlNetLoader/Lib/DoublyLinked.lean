import Mathlib.Data.List.Nodup
import Mathlib.Logic.Function.Basic

/-!
# Doubly linked lists without a head node

Nodes that point to the next and the previous one, with pointers to the first and the last. A store
has the nodes of a list if each points to its neighbours there (`Represents`); linking a node behind
the last and unlinking any node do to that list what one would expect.
-/

namespace DoublyLinked

variable {α : Type*}

structure Store (α : Type*) where
  next : α → Option α
  prev : α → Option α
  head : Option α
  tail : Option α

namespace Store

structure Represents (s : Store α) (xs : List α) : Prop where
  nodup : xs.Nodup
  head : s.head = xs.head?
  tail : s.tail = xs.getLast?
  links : ∀ as x bs, xs = as ++ x :: bs → s.prev x = as.getLast? ∧ s.next x = bs.head?

/-- The nodes met from `p` on along `step`, `n` at most. -/
def walk (step : α → Option α) : ℕ → Option α → List α
  | 0, _ => []
  | _ + 1, none => []
  | n + 1, some p => p :: walk step n (step p)

variable [DecidableEq α]

/-- The node becomes the last. -/
def pushBack (s : Store α) (x : α) : Store α :=
  let prev := Function.update s.prev x s.tail
  let next := Function.update s.next x none
  match s.tail with
  | none => ⟨next, prev, some x, some x⟩
  | some t => ⟨Function.update next t (some x), prev, s.head, some x⟩

/-- The node's neighbours, or the ends, point past it. -/
def unlink (s : Store α) (x : α) : Store α where
  next := match s.prev x with
    | some q => Function.update s.next q (s.next x)
    | none => s.next
  prev := match s.next x with
    | some r => Function.update s.prev r (s.prev x)
    | none => s.prev
  head := if s.prev x = none then s.next x else s.head
  tail := if s.next x = none then s.prev x else s.tail

variable {s : Store α} {xs : List α} {x : α}

omit [DecidableEq α] in
/-- Only the links of the nodes in the list matter. -/
theorem Represents.congr {s' : Store α} (h : s.Represents xs)
    (hn : ∀ x ∈ xs, s'.next x = s.next x) (hp : ∀ x ∈ xs, s'.prev x = s.prev x)
    (hh : s'.head = s.head) (ht : s'.tail = s.tail) : s'.Represents xs := by
  refine ⟨h.nodup, hh.trans h.head, ht.trans h.tail, fun as x bs hxs => ?_⟩
  have hx : x ∈ xs := by simp [hxs]
  rw [hn x hx, hp x hx]
  exact h.links as x bs hxs

omit [DecidableEq α] in
theorem walk_none (step : α → Option α) (n : ℕ) : walk step n none = [] := by
  cases n <;> rfl

omit [DecidableEq α] in
theorem Represents.walk_next (h : s.Represents xs) (k : ℕ) : ∀ as bs, xs = as ++ bs →
    walk s.next (bs.length + k) bs.head? = bs
  | _, [], _ => walk_none _ _
  | as, b :: bs, hxs => by
    rw [List.head?_cons, List.length_cons, Nat.succ_add, walk, (h.links as b bs hxs).2,
      h.walk_next k (as ++ [b]) bs (by simp [hxs])]

omit [DecidableEq α] in
theorem Represents.walk_prev (h : s.Represents xs) (k : ℕ) (bs : List α) :
    ∀ as, xs = as.reverse ++ bs → walk s.prev (as.length + k) as.head? = as := by
  intro as
  induction as generalizing bs with
  | nil => exact fun _ => walk_none _ _
  | cons a as ih =>
    intro hxs
    have hlink := (h.links as.reverse a bs (by simpa using hxs)).1
    rw [List.getLast?_reverse] at hlink
    rw [List.head?_cons, List.length_cons, Nat.succ_add, walk, hlink,
      ih (a :: bs) (by simpa using hxs)]

omit [DecidableEq α] in
/-- Whoever walks from an end on meets the list, and nothing after it. -/
theorem Represents.walks (h : s.Represents xs) {n : ℕ} (hn : xs.length ≤ n) :
    walk s.next n s.head = xs ∧ walk s.prev n s.tail = xs.reverse := by
  obtain ⟨k, rfl⟩ := Nat.exists_eq_add_of_le hn
  refine ⟨h.head ▸ h.walk_next k [] xs rfl, ?_⟩
  have := h.walk_prev k [] xs.reverse (by simp)
  rwa [List.length_reverse, List.head?_reverse, ← h.tail] at this

omit [DecidableEq α] in
/-- A node of two lists, one behind the other, is in the first or in the second. -/
theorem append_eq_append_cons {as bs cs ds : List α} {y : α} (h : as ++ bs = cs ++ y :: ds) :
    (∃ es, as = cs ++ y :: es ∧ ds = es ++ bs) ∨ ∃ es, bs = es ++ y :: ds ∧ cs = as ++ es := by
  rcases List.append_eq_append_iff.1 h with ⟨es, rfl, rfl⟩ | ⟨es, rfl, hes⟩
  · exact .inr ⟨es, rfl, rfl⟩
  · rcases es with _ | ⟨e, es⟩
    · exact .inr ⟨[], hes.symm, by simp⟩
    · obtain ⟨rfl, rfl⟩ := List.cons.inj hes
      exact .inl ⟨es, rfl, rfl⟩

theorem pushBack_next (s : Store α) (x y : α) : (s.pushBack x).next y =
    if s.tail = some y then some x else if y = x then none else s.next y := by
  unfold Store.pushBack
  rcases s.tail with _ | t
  · simp [Function.update_apply]
  · simp only [Function.update_apply, Option.some.injEq, eq_comm (a := t)]

theorem pushBack_prev (s : Store α) (x y : α) :
    (s.pushBack x).prev y = if y = x then s.tail else s.prev y := by
  unfold Store.pushBack
  rcases s.tail with _ | t <;> simp only [Function.update_apply]

theorem pushBack_head (s : Store α) (x : α) :
    (s.pushBack x).head = if s.tail = none then some x else s.head := by
  unfold Store.pushBack
  rcases s.tail with _ | t <;> simp

theorem pushBack_tail (s : Store α) (x : α) : (s.pushBack x).tail = some x := by
  unfold Store.pushBack
  rcases s.tail with _ | t <;> rfl

theorem unlink_next (s : Store α) (x y : α) :
    (s.unlink x).next y = if s.prev x = some y then s.next x else s.next y := by
  unfold Store.unlink
  rcases s.prev x with _ | q
  · simp
  · simp only [Function.update_apply, Option.some.injEq, eq_comm (a := q)]

theorem unlink_prev (s : Store α) (x y : α) :
    (s.unlink x).prev y = if s.next x = some y then s.prev x else s.prev y := by
  unfold Store.unlink
  rcases s.next x with _ | r
  · simp
  · simp only [Function.update_apply, Option.some.injEq, eq_comm (a := r)]

theorem Represents.pushBack (h : s.Represents xs) (hx : x ∉ xs) :
    (s.pushBack x).Represents (xs ++ [x]) := by
  refine ⟨?_, ?_, ?_, fun as y bs hs => ?_⟩
  · exact List.nodup_append.2 ⟨h.nodup, List.nodup_singleton x, fun a ha b hb => by
      rintro rfl
      exact hx (List.mem_singleton.1 hb ▸ ha)⟩
  · rw [pushBack_head, h.tail, h.head]
    rcases xs with _ | ⟨a, xs⟩ <;> simp
  · rw [pushBack_tail]
    simp
  · rw [pushBack_prev, pushBack_next, h.tail]
    rcases List.eq_nil_or_concat bs with rfl | ⟨bs, b, rfl⟩
    · -- the node itself
      obtain ⟨rfl, hy⟩ := List.append_inj' hs rfl
      obtain rfl : x = y := by simpa using hy
      have hlast : xs.getLast? ≠ some x := fun hl => hx (List.mem_of_getLast? hl)
      rw [if_pos rfl, if_neg hlast, if_pos rfl]
      exact ⟨rfl, rfl⟩
    · -- a node that was there: of these only the last has another behind it now
      rw [List.concat_eq_append, ← List.cons_append, ← List.append_assoc] at hs
      obtain ⟨rfl, hb⟩ := List.append_inj' hs rfl
      obtain rfl : x = b := by simpa using hb
      obtain ⟨hprev, hnext⟩ := h.links as y bs rfl
      have hne : y ≠ x := by
        rintro rfl
        exact hx (by simp)
      rw [if_neg hne, if_neg hne, hprev, hnext]
      refine ⟨rfl, ?_⟩
      rcases List.eq_nil_or_concat bs with rfl | ⟨cs, c, rfl⟩
      · simp
      · have hyc : c ≠ y := by
          rintro rfl
          have hd := (List.nodup_append.1 h.nodup).2.1
          simp at hd
        have hlast : (as ++ y :: (cs ++ [c])).getLast? = some c := by
          rw [← List.cons_append, ← List.append_assoc, List.getLast?_concat]
        rw [List.concat_eq_append, hlast, if_neg (by simpa using hyc)]
        rcases cs with _ | ⟨d, cs⟩ <;> simp

theorem Represents.unlink {as bs : List α} (h : s.Represents (as ++ x :: bs)) :
    (s.unlink x).Represents (as ++ bs) := by
  obtain ⟨hprev, hnext⟩ := h.links as x bs rfl
  have hnodup := h.nodup
  rw [List.nodup_append, List.nodup_cons] at hnodup
  obtain ⟨has, ⟨hxbs, hbs⟩, hdisjoint⟩ := hnodup
  refine ⟨?_, ?_, ?_, fun cs y ds hs => ?_⟩
  · exact List.nodup_append.2 ⟨has, hbs, fun a ha b hb =>
      hdisjoint a ha b (List.mem_cons_of_mem x hb)⟩
  · show (if s.prev x = none then s.next x else s.head) = _
    rw [hprev, hnext, h.head]
    rcases as with _ | ⟨a, as⟩ <;> simp
  · show (if s.next x = none then s.prev x else s.tail) = _
    rw [hprev, hnext, h.tail]
    rcases bs with _ | ⟨b, bs⟩ <;> simp
  · rw [unlink_prev, unlink_next, hprev, hnext]
    rcases append_eq_append_cons hs with ⟨es, rfl, rfl⟩ | ⟨es, rfl, rfl⟩
    · -- in front of the node
      obtain ⟨hp, hn⟩ := h.links cs y (es ++ x :: bs) (by simp)
      have hy : y ∉ bs := fun hy => hdisjoint y (by simp) y (List.mem_cons_of_mem x hy) rfl
      have hhead : bs.head? ≠ some y := fun hb => hy (List.mem_of_head? hb)
      rw [if_neg hhead, hp, hn]
      refine ⟨rfl, ?_⟩
      rcases List.eq_nil_or_concat es with rfl | ⟨fs, e, rfl⟩
      · simp
      · have hye : e ≠ y := by
          rintro rfl
          have hd := (List.nodup_append.1 has).2.1
          simp at hd
        have hlast : (cs ++ y :: (fs ++ [e])).getLast? = some e := by
          rw [← List.cons_append, ← List.append_assoc, List.getLast?_concat]
        rw [List.concat_eq_append, hlast, if_neg (by simpa using hye)]
        rcases fs with _ | ⟨d, fs⟩ <;> simp
    · -- behind it
      obtain ⟨hp, hn⟩ := h.links (as ++ x :: es) y ds (by simp)
      have hy : y ∉ as := fun hy => hdisjoint y hy y (by simp) rfl
      have hlast : as.getLast? ≠ some y := fun ha => hy (List.mem_of_getLast? ha)
      rw [if_neg hlast, hp, hn]
      refine ⟨?_, rfl⟩
      rcases es with _ | ⟨e, es⟩
      · simp
      · have hye : e ≠ y := by
          rintro rfl
          simp at hbs
        rw [List.cons_append, List.head?_cons, if_neg (by simpa using hye)]
        rcases List.eq_nil_or_concat es with rfl | ⟨fs, f, rfl⟩ <;> simp

end Store

end DoublyLinked
