import Mathlib.Tactic

/-!
# Circular lists in memory

The entries of a circular list are linked both ways, and its head is linked like the others but
is no entry. Memory that is not allocated holds no links, so that reading or writing it has no
result. `IsRing` says which entries one passes from a head until one is back at it. An entry taken
out and freed leaves the ring of the others.
-/

namespace Ring

structure Link (ι : Type*) where
  flink : ι
  blink : ι

/-- What memory holds at each address, nothing where nothing is allocated. -/
abbrev Links (ι : Type*) := ι → Option (Link ι)

section

variable {ι : Type*} {l l' : Links ι} {head p a b : ι} {xs as bs ys : List ι}

def flink (l : Links ι) (p : ι) : Option ι := (l p).map (·.flink)

def blink (l : Links ι) (p : ι) : Option ι := (l p).map (·.blink)

/-- The second is linked behind the first. -/
def Joined (l : Links ι) (a b : ι) : Prop := flink l a = some b ∧ blink l b = some a

/-- From the head one passes these entries, each once, and is back at the head. -/
structure IsRing (l : Links ι) (head : ι) (xs : List ι) : Prop where
  nodup : (head :: xs).Nodup
  joined : (head :: (xs ++ [head])).IsChain (Joined l)

theorem isSome_of_map {g : Link ι → ι} (h : (l p).map g = some a) : (l p).isSome := by
  obtain ⟨x, hx, -⟩ := Option.map_eq_some_iff.1 h
  simp [hx]

/-- The link from an entry leads to the one after it, or else to the head. -/
theorem IsRing.flink_eq (h : IsRing l head xs) (as : List ι) (hp : head :: xs = as ++ p :: bs) :
    flink l p = some (bs.headD head) := by
  have hj := h.joined
  rw [← List.cons_append, hp, List.append_assoc, List.cons_append] at hj
  refine (hj.right_of_append.rel_head? (y := bs.headD head) ?_).1
  cases bs <;> simp

theorem IsRing.isSome (h : IsRing l head xs) (hp : p ∈ head :: xs) : (l p).isSome := by
  obtain ⟨as, bs, hs⟩ := List.append_of_mem hp
  exact isSome_of_map (h.flink_eq as hs)

/-- Only the links forward from all but the last, and back from all but the first, matter. -/
theorem isChain_congr : ∀ {ys : List ι}, (∀ u ∈ ys.dropLast, flink l' u = flink l u) →
    (∀ v ∈ ys.tail, blink l' v = blink l v) → ys.IsChain (Joined l) → ys.IsChain (Joined l')
  | [], _, _, _ => .nil
  | [_], _, _, _ => .singleton _
  | u :: v :: ys, hf, hb, h => by
    rw [List.isChain_cons_cons] at h ⊢
    rw [List.dropLast_cons_cons, List.forall_mem_cons] at hf
    rw [List.tail_cons, List.forall_mem_cons] at hb
    exact ⟨⟨hf.1.trans h.1.1, hb.1.trans h.1.2⟩, isChain_congr hf.2 hb.2 h.2⟩

variable [DecidableEq ι]

def modify (l : Links ι) (p : ι) (g : Link ι → Link ι) : Option (Links ι) :=
  (l p).map fun x => Function.update l p (some (g x))

/-- An entry is taken out by linking those before and after it to each other. -/
def removeEntry (l : Links ι) (p : ι) : Option (Links ι) := do
  let next ← flink l p
  let prev ← blink l p
  let l ← modify l prev fun x => { x with flink := next }
  modify l next fun x => { x with blink := prev }

def free (l : Links ι) (p : ι) : Option (Links ι) := (l p).map fun _ => Function.update l p none

theorem IsRing.free (h : IsRing l head xs) (hp : p ∉ head :: xs) :
    IsRing (Function.update l p none) head xs := by
  have hne : ∀ u ∈ head :: (xs ++ [head]), Function.update l p none u = l u := by
    intro u hu
    refine Function.update_of_ne ?_ _ _
    rintro rfl
    exact hp (by simpa [or_comm] using hu)
  refine ⟨h.nodup, isChain_congr (fun u hu => ?_) (fun v hv => ?_) h.joined⟩
  · rw [flink, flink, hne u (List.mem_of_mem_dropLast hu)]
  · rw [blink, blink, hne v (List.mem_of_mem_tail hv)]

/-- The links once `a` and `b` were linked to each other. -/
theorem relink (ha : (l a).isSome) (hb : (l b).isSome) : ∃ l',
    ((modify l a fun x => { x with flink := b }) >>=
        fun l => modify l b fun x => { x with blink := a }) = some l'
      ∧ (∀ u, flink l' u = if u = a then some b else flink l u)
      ∧ (∀ v, blink l' v = if v = b then some a else blink l v)
      ∧ ∀ u, u ≠ a → u ≠ b → l' u = l u := by
  obtain ⟨x, hx⟩ := Option.isSome_iff_exists.1 ha
  obtain ⟨y, hy⟩ := Option.isSome_iff_exists.1 hb
  by_cases hab : b = a
  · subst hab
    refine ⟨Function.update l b (some ⟨b, b⟩), ?_, fun u => ?_, fun v => ?_, fun u hu _ => ?_⟩
    · simp [modify, hx]
    · by_cases hu : u = b <;> simp [flink, hu]
    · by_cases hv : v = b <;> simp [blink, hv]
    · exact Function.update_of_ne hu _ _
  · refine ⟨Function.update (Function.update l a (some { x with flink := b })) b
      (some { y with blink := a }), ?_, fun u => ?_, fun v => ?_, fun u hu hu' => ?_⟩
    · simp [modify, hx, hy, hab]
    · by_cases hu : u = b
      · simp [flink, hu, hy, hab]
      · by_cases hu' : u = a <;> simp [flink, hu, hu', Ne.symm hab]
    · by_cases hv : v = b
      · simp [blink, hv]
      · by_cases hv' : v = a
        · simp [blink, hv', hx, Ne.symm hab]
        · simp [blink, hv, hv']
    · rw [Function.update_of_ne hu', Function.update_of_ne hu]

/-- The entry taken out leaves the others as they were, and is itself not written to. -/
theorem IsRing.removeEntry (h : IsRing l head (as ++ p :: bs)) :
    ∃ l', removeEntry l p = some l' ∧ IsRing l' head (as ++ bs) ∧ l' p = l p
      ∧ ∀ u, l u = none → l' u = none := by
  obtain ⟨as', a, ha⟩ : ∃ as' a, head :: as = as' ++ [a] :=
    ⟨_, _, (List.dropLast_append_getLast (List.cons_ne_nil head as)).symm⟩
  obtain ⟨b, bs', hb⟩ : ∃ b bs', bs ++ [head] = b :: bs' :=
    List.exists_cons_of_ne_nil (by simp)
  have hj : (as' ++ a :: p :: b :: bs').IsChain (Joined l) := by
    have := h.joined
    rwa [show head :: (as ++ p :: bs ++ [head]) = head :: as ++ p :: (bs ++ [head]) by simp, ha, hb,
      List.append_assoc, List.singleton_append] at this
  rw [List.isChain_append_cons_cons, List.isChain_cons_cons] at hj
  obtain ⟨hfront, hap, hpb, hback⟩ := hj
  -- No entry is passed twice, so `a` is before `p` and `b` behind it.
  have hn : (head :: as ++ p :: bs).Nodup := h.nodup
  rw [List.nodup_append] at hn
  have hafter : ∀ u ∈ p :: bs, u ≠ a := by
    rintro u hu rfl
    exact hn.2.2 u (by simp [ha]) u hu rfl
  have hn' : (as ++ [p] ++ b :: bs').Nodup := by
    have : (as ++ p :: bs ++ [head]).Nodup :=
      (List.perm_append_singleton head (as ++ p :: bs)).nodup_iff.2 h.nodup
    rwa [← hb, List.append_assoc, ← List.append_assoc [p], ← List.append_assoc as]
  rw [List.nodup_append] at hn'
  have hbefore : ∀ v ∈ as ++ [p], v ≠ b := by
    rintro v hv rfl
    exact hn'.2.2 v hv v (by simp) rfl
  obtain ⟨l', hl', hf, hbl, hrest⟩ := relink (isSome_of_map hap.1) (isSome_of_map hpb.2)
  refine ⟨l', ?_, ⟨?_, ?_⟩, hrest p (hafter p (by simp)) (hbefore p (by simp)), fun u hu => ?_⟩
  · simp only [Ring.removeEntry, hpb.1, hap.2]
    exact hl'
  · refine h.nodup.sublist ?_
    exact ((List.sublist_cons_self p bs).append_left as).cons_cons head
  · rw [show head :: (as ++ bs ++ [head]) = head :: as ++ (bs ++ [head]) by simp, ha, hb,
      List.append_assoc, List.singleton_append, List.isChain_append_cons_cons]
    refine ⟨isChain_congr (fun u hu => ?_) (fun v hv => ?_) hfront,
      ⟨by rw [hf, if_pos rfl], by rw [hbl, if_pos rfl]⟩,
      isChain_congr (fun u hu => ?_) (fun v hv => ?_) hback⟩
    · rw [List.dropLast_concat] at hu
      rw [hf, if_neg]
      rintro rfl
      rw [ha, List.nodup_append] at hn
      exact hn.1.2.2 u hu u (by simp) rfl
    · rw [← ha, List.tail_cons] at hv
      rw [hbl, if_neg (hbefore v (by simp [hv]))]
    · rw [← hb, List.dropLast_concat] at hu
      rw [hf, if_neg (hafter u (by simp [hu]))]
    · rw [hbl, if_neg]
      rintro rfl
      exact (List.nodup_cons.1 hn'.2.1).1 hv
  · rw [hrest u ?_ ?_, hu]
    · rintro rfl
      simp [Joined, flink, hu] at hap
    · rintro rfl
      simp [Joined, blink, hu] at hpb

end

end Ring
