import Mathlib.Tactic

/-!
# Intrusive singly linked chains

Cells are linked by a map from each cell to the one after it, so relinking a cell is an update of
the map. `IsChain next p xs` says that following the links from `p` one passes `xs` and then the
end. A `Queue` is a chain under construction, known by its first and last cell: a push links the
last cell to the new one, and whatever the new last cell is linked to is only cut off by `close`.
-/

namespace Linked

variable {ι : Type*} {next next' : ι → Option ι} {p : Option ι} {x y : ι} {xs ys : List ι}

def IsChain (next : ι → Option ι) : Option ι → List ι → Prop
  | p, [] => p = none
  | p, x :: xs => p = some x ∧ IsChain next (next x) xs

namespace IsChain

theorem head : ∀ {xs : List ι}, IsChain next p xs → p = xs.head?
  | [], h => h
  | _ :: _, h => h.1

/-- The links decide the chain. -/
theorem unique : ∀ {xs ys : List ι} {p : Option ι}, IsChain next p xs → IsChain next p ys → xs = ys
  | [], [], _, _, _ => rfl
  | [], _ :: _, _, h, h' => by simp [h.head] at h'; exact absurd h'.1 (by simp)
  | _ :: _, [], _, h, h' => by simp [h'.head] at h; exact absurd h.1 (by simp)
  | x :: xs, y :: ys, p, h, h' => by
    obtain ⟨rfl, h⟩ := h
    obtain ⟨hy, h'⟩ := h'
    cases hy
    rw [unique h h']

theorem suffix : ∀ {ys : List ι} {p : Option ι}, IsChain next p (ys ++ x :: xs) →
    IsChain next (next x) xs
  | [], _, h => h.2
  | _ :: _, _, h => suffix h.2

/-- A chain that ends passes no cell twice. -/
theorem nodup : ∀ {xs : List ι} {p : Option ι}, IsChain next p xs → xs.Nodup
  | [], _, _ => List.nodup_nil
  | x :: xs, p, h => by
    refine List.nodup_cons.2 ⟨fun hx => ?_, nodup h.2⟩
    obtain ⟨as, bs, rfl⟩ := List.append_of_mem hx
    have := congrArg List.length (unique h.2 (suffix h.2))
    simp only [List.length_append, List.length_cons] at this
    omega

theorem congr : ∀ {xs : List ι} {p : Option ι}, (∀ x ∈ xs, next' x = next x) →
    IsChain next p xs → IsChain next' p xs
  | [], _, _, h => h
  | x :: xs, _, hn, h => by
    obtain ⟨rfl, h⟩ := h
    refine ⟨rfl, ?_⟩
    rw [hn x List.mem_cons_self]
    exact h.congr fun y hy => hn y (List.mem_cons_of_mem x hy)

/-- A cell is taken out by linking the one before it to the one after it. -/
theorem splice [DecidableEq ι] {t : ι} : ∀ {ys : List ι} {p : Option ι},
    IsChain next p (ys ++ t :: x :: xs) →
    IsChain (Function.update next t (next x)) p (ys ++ t :: xs)
  | [], p, h => by
    have ht : t ∉ xs := fun hm => (List.nodup_cons.1 h.nodup).1 (List.mem_cons_of_mem x hm)
    refine ⟨h.1, ?_⟩
    rw [Function.update_self]
    refine h.2.2.congr fun y hy => Function.update_of_ne ?_ _ _
    rintro rfl
    exact ht hy
  | y :: ys, p, h => by
    have hy : y ≠ t := by
      rintro rfl
      exact (List.nodup_cons.1 h.nodup).1 (by simp)
    refine ⟨h.1, ?_⟩
    rw [Function.update_of_ne hy]
    exact h.2.splice

end IsChain

/-- The cells passed from `p` on, of which there are no more than there is fuel. -/
def cells (next : ι → Option ι) : ℕ → Option ι → List ι
  | 0, _ => []
  | _ + 1, none => []
  | fuel + 1, some x => x :: cells next fuel (next x)

theorem IsChain.cells_eq : ∀ {xs : List ι} {fuel : ℕ} {p : Option ι}, IsChain next p xs →
    xs.length ≤ fuel → cells next fuel p = xs
  | [], 0, _, _, _ => rfl
  | [], _ + 1, p, h, _ => by
    obtain rfl : p = none := h
    rfl
  | x :: xs, fuel + 1, p, h, hf => by
    obtain ⟨rfl, h⟩ := h
    rw [cells, h.cells_eq (by simpa using hf)]

/-- `while (cur) { step; cur = next(cur); }`, of at most as many rounds as there is fuel. -/
def walk {σ : Type*} (links : σ → ι → Option ι) (step : σ → ι → σ) : ℕ → Option ι → σ → σ
  | 0, _, s => s
  | _ + 1, none, s => s
  | fuel + 1, some x, s => walk links step fuel (links (step s x) x) (step s x)

/-- What every round keeps, whatever the chain. -/
theorem walk_keeps {σ : Type*} {links : σ → ι → Option ι} {step : σ → ι → σ} {I : σ → Prop}
    (hstep : ∀ s x, I s → I (step s x)) :
    ∀ (fuel : ℕ) (p : Option ι) (s : σ), I s → I (walk links step fuel p s)
  | 0, _, _, h => h
  | _ + 1, none, _, h => h
  | fuel + 1, some x, s, h => walk_keeps hstep fuel _ _ (hstep s x h)

/-- A walk whose rounds keep an invariant of the cells passed, and leave the link of the cell they
are at, passes the whole chain. -/
theorem walk_inv {σ : Type*} {links : σ → ι → Option ι} {step : σ → ι → σ} {I : List ι → σ → Prop}
    (hstep : ∀ done x rest s, xs = done ++ x :: rest → I done s →
      I (done ++ [x]) (step s x) ∧ links (step s x) x = next x) :
    ∀ (rest done : List ι) (fuel : ℕ) (p : Option ι) (s : σ), xs = done ++ rest →
      IsChain next p rest → rest.length ≤ fuel → I done s → I xs (walk links step fuel p s)
  | [], done, fuel, p, s, hxs, hp, _, h => by
    obtain rfl : p = none := hp
    rw [List.append_nil] at hxs
    subst hxs
    cases fuel <;> exact h
  | x :: rest, done, 0, p, s, _, _, hf, _ => by simp at hf
  | x :: rest, done, fuel + 1, p, s, hxs, hp, hf, h => by
    obtain ⟨rfl, hp⟩ := hp
    obtain ⟨h1, h2⟩ := hstep done x rest s hxs h
    unfold walk
    rw [h2]
    refine walk_inv hstep rest (done ++ [x]) fuel (next x) _ (by simp [hxs]) hp ?_ h1
    simpa using hf

/-- The first and the last cell of a chain under construction. -/
structure Queue (ι : Type*) where
  head : Option ι
  tail : Option ι

namespace Queue

def empty : Queue ι := ⟨none, none⟩

/-- The links once that of the last cell was set. -/
def relink [DecidableEq ι] (next : ι → Option ι) (q : Queue ι) (y : Option ι) : ι → Option ι :=
  match q.tail with
  | some t => Function.update next t y
  | none => next

/-- The links after a cell was put at the end. -/
def link [DecidableEq ι] (next : ι → Option ι) (q : Queue ι) (x : ι) : ι → Option ι :=
  match q.head with
  | none => next
  | some _ => q.relink next (some x)

def push (q : Queue ι) (x : ι) : Queue ι :=
  match q.head with
  | none => ⟨some x, some x⟩
  | some _ => ⟨q.head, some x⟩

def close [DecidableEq ι] (next : ι → Option ι) (q : Queue ι) : ι → Option ι := q.relink next none

/-- The queue is `xs` so far. -/
structure Holds (next : ι → Option ι) (q : Queue ι) (xs : List ι) : Prop where
  head : q.head = xs.head?
  tail : q.tail = xs.getLast?
  links : xs.IsChain fun x y => next x = some y
  nodup : xs.Nodup

variable {q : Queue ι}

theorem Holds.empty : Holds next (empty : Queue ι) [] :=
  ⟨rfl, rfl, List.isChain_nil, List.nodup_nil⟩

theorem Holds.head_eq_none (h : Holds next q xs) : q.head = none ↔ xs = [] := by
  rw [h.head, List.head?_eq_none_iff]

theorem Holds.tail_eq_none (h : Holds next q xs) : q.tail = none ↔ xs = [] := by
  rw [h.tail, List.getLast?_eq_none_iff]

theorem isChain_congr (hn : ∀ x ∈ xs, next' x = next x)
    (h : xs.IsChain fun x y => next x = some y) : xs.IsChain fun x y => next' x = some y :=
  h.imp_of_mem_imp fun x _ hx _ hxy => (hn x hx).trans hxy

theorem Holds.congr (hn : ∀ x ∈ xs, next' x = next x) (h : Holds next q xs) : Holds next' q xs :=
  ⟨h.head, h.tail, isChain_congr hn h.links, h.nodup⟩

variable [DecidableEq ι]

theorem Holds.relink_of_notMem (h : Holds next q xs) (hy : y ∉ xs) (v : Option ι) :
    q.relink next v y = next y := by
  unfold relink
  rcases ht : q.tail with _ | t
  · rfl
  · have htm : t ∈ xs := List.mem_of_getLast? (h.tail.symm.trans ht)
    refine Function.update_of_ne ?_ _ _
    rintro rfl
    exact hy htm

/-- A push relinks no cell outside the queue. -/
theorem Holds.link_of_notMem (h : Holds next q xs) (hy : y ∉ xs) : q.link next x y = next y := by
  unfold link
  rcases q.head with _ | a
  · rfl
  · exact h.relink_of_notMem hy _

theorem Holds.close_of_notMem (h : Holds next q xs) (hy : y ∉ xs) : q.close next y = next y :=
  h.relink_of_notMem hy none

theorem isChain_relink {t : ι} {v : Option ι} (hnd : (ys ++ [t]).Nodup)
    (h : (ys ++ [t]).IsChain fun x y => next x = some y) :
    (ys ++ [t]).IsChain fun x y => Function.update next t v x = some y := by
  rw [List.isChain_append] at h ⊢
  have ht : t ∉ ys := fun hm => List.disjoint_of_nodup_append hnd hm (List.mem_singleton_self t)
  have hne : ∀ x ∈ ys, Function.update next t v x = next x := by
    intro x hx
    refine Function.update_of_ne ?_ _ _
    rintro rfl
    exact ht hx
  refine ⟨isChain_congr hne h.1, List.isChain_singleton t, fun x hx y hy => ?_⟩
  rw [hne x (List.mem_of_getLast? hx)]
  exact h.2.2 x hx y hy

theorem Holds.push (h : Holds next q xs) (hx : x ∉ xs) :
    Holds (q.link next x) (q.push x) (xs ++ [x]) := by
  have hnd : (xs ++ [x]).Nodup := by
    simpa using List.Nodup.concat hx h.nodup
  rcases List.eq_nil_or_concat' xs with rfl | ⟨ys, t, rfl⟩
  · have hq := h.head_eq_none.2 rfl
    unfold Queue.push
    rw [hq]
    exact ⟨rfl, rfl, List.isChain_singleton x, hnd⟩
  · obtain ⟨a, ha⟩ : ∃ a, q.head = some a := Option.ne_none_iff_exists'.1 fun hq => by
      simpa using h.head_eq_none.1 hq
    have ht : q.tail = some t := h.tail.trans (by simp)
    have hlink : q.link next x = Function.update next t (some x) := by
      unfold link relink
      rw [ha, ht]
    unfold Queue.push
    rw [ha, hlink]
    refine ⟨?_, by simp, ?_, hnd⟩
    · simp only
      rw [← ha, h.head]
      cases ys <;> rfl
    · rw [List.isChain_append]
      refine ⟨isChain_relink h.nodup h.links, List.isChain_singleton x, fun b hb c hc => ?_⟩
      simp only [List.getLast?_append, List.getLast?_singleton, Option.some_or, Option.mem_def,
        Option.some.injEq, List.head?_cons] at hb hc
      rw [← hb, ← hc, Function.update_self]

omit [DecidableEq ι] in
theorem isChain_of_links : ∀ {xs : List ι}, (xs.IsChain fun x y => next x = some y) →
    (∀ t ∈ xs.getLast?, next t = none) → IsChain next xs.head? xs
  | [], _, _ => rfl
  | [x], _, ht => ⟨rfl, ht x rfl⟩
  | x :: y :: xs, h, ht => by
    rw [List.isChain_cons_cons] at h
    refine ⟨rfl, ?_⟩
    rw [h.1]
    exact isChain_of_links h.2 fun t htm => ht t (by simpa using htm)

/-- A closed queue is a chain. -/
theorem Holds.close (h : Holds next q xs) : IsChain (q.close next) q.head xs := by
  rw [h.head]
  rcases List.eq_nil_or_concat' xs with rfl | ⟨ys, t, rfl⟩
  · rfl
  · have ht : q.tail = some t := h.tail.trans (by simp)
    have hclose : q.close next = Function.update next t none := by
      unfold Queue.close relink
      rw [ht]
    rw [hclose]
    refine isChain_of_links (isChain_relink h.nodup h.links) fun a ha => ?_
    simp only [List.getLast?_append, List.getLast?_singleton, Option.some_or, Option.mem_def,
      Option.some.injEq] at ha
    rw [← ha, Function.update_self]

end Queue

end Linked
