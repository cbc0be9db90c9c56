import Mathlib.Data.List.Find
import Mathlib.Data.List.TakeWhile
import LcxlNetLoader.Lib.Cyclic
import LcxlNetLoader.Proofs.References
import LcxlNetLoader.Selection

/-!
# Searching the ring of servers

From a linked server on the search looks at each server of one round until it stops at one, so
it comes to an end before it is back where it began. It returns the round's choice, and all it
leaves locked is the server it stopped at.
-/

namespace LcxlNetLoader

variable {ring : ServerRing} {t : ServerTable} {m : IpMode} {last : Bool} {server cur : ServerPtr}
  {as bs done rest : List ServerPtr} {checking : Option ServerPtr}

theorem nextServer_eq (hp : cur ∉ as) :
    nextServer (as ++ cur :: bs) cur = bs.headD ((as ++ cur :: bs).headD cur) := by
  have hdrop : (as ++ cur :: bs).dropWhile (· ≠ cur) = cur :: bs := by
    rw [List.dropWhile_append_of_pos, List.dropWhile_cons_of_neg (by simp)]
    intro a ha
    simpa using fun hac : a = cur => hp (hac ▸ ha)
  rw [nextServer, hdrop, List.tail_cons]
  cases bs <;> rfl

/-- The link of the last server leads to the head, whose link leads to the first. -/
theorem flink_bind {α : Type} (h : Ring.IsRing ring.links ring.head (as ++ cur :: bs))
    (f : ServerPtr → Locking.Locks α) :
    (do
      let next ← Locking.flink ring cur
      let next ← if next = ring.head then Locking.flink ring next else pure next
      f next) = f (bs.headD ((as ++ cur :: bs).headD cur)) := by
  have hnext : Ring.flink ring.links cur = some (bs.headD ring.head) :=
    h.flink_eq (ring.head :: as) rfl
  rcases bs with _ | ⟨b, bs⟩
  · have hfirst := h.flink_eq [] rfl
    rw [List.headD_nil] at hnext
    simp only [Locking.flink, hnext, hfirst, SpinM.ofOption_some, SpinM.returns_bind, if_true,
      SpinM.after_nil]
    cases as <;> rfl
  · have hb : b ≠ ring.head := by
      rintro rfl
      exact (List.nodup_cons.1 h.nodup).1 (by simp)
    simp only [Locking.flink, hnext, List.headD_cons, SpinM.ofOption_some, SpinM.returns_bind,
      if_neg hb, SpinM.after_nil, SpinM.pure_eq]

/-- The loop breaks off at such a server. -/
def ServerTable.stops (t : ServerTable) (m : IpMode) (last : Bool) (p : ServerPtr) : Bool :=
  t.avaliable m p && !(last && t.checking p)

/-- The server remembered by the time the loop breaks off. -/
def remembered (t : ServerTable) (m : IpMode) (last : Bool) (order : List ServerPtr)
    (checking : Option ServerPtr) : Option ServerPtr :=
  (order.takeWhile fun p => !t.stops m last p).reverse.find? (t.avaliable m) <|> checking

/-- The spin-lock calls of a loop that looks at servers in this order. -/
def scanCalls (t : ServerTable) (m : IpMode) (last : Bool) (order : List ServerPtr) :
    List (SpinOp ServerPtr) :=
  (order.takeWhile fun p => !t.stops m last p).flatMap SpinOp.bracket
    ++ (order.find? (t.stops m last)).toList.map .acquire

theorem remembered_cons (h : t.stops m last cur = false) :
    remembered t m last (cur :: rest) checking
      = remembered t m last rest (if t.avaliable m cur then some cur else checking) := by
  simp only [remembered, List.takeWhile_cons, h, Bool.not_false, if_true, List.reverse_cons,
    List.find?_append, Option.orElse_eq_orElse, Option.orElse_eq_or, Option.or_assoc]
  congr 1
  by_cases ha : t.avaliable m cur <;> simp [ha]

theorem scanCalls_cons (h : t.stops m last cur = false) :
    scanCalls t m last (cur :: rest) =
      .acquire cur :: .release cur :: scanCalls t m last rest := by
  simp [scanCalls, h, SpinOp.bracket]

/-- The loop locks the servers of a first part of the order, each once. -/
theorem acquired_scanCalls : ∀ order : List ServerPtr,
    SpinOp.acquired (scanCalls t m last order) <+: order
  | [] => List.prefix_rfl
  | p :: rest => by
    rcases hstop : t.stops m last p
    · rw [scanCalls_cons hstop]
      exact List.prefix_cons_inj p |>.2 (acquired_scanCalls rest)
    · simp [scanCalls, SpinOp.acquired, hstop]

theorem stops_iff (cur : ServerPtr) : t.stops m last cur = true ↔ serverIsAvaliable (t.mem cur) m
    ∧ ¬ (last ∧ has (t.mem cur).info.status ssChecking) := by
  simp only [ServerTable.stops, ServerTable.avaliable, ServerTable.checking, Bool.and_eq_true,
    Bool.not_eq_true', Bool.and_eq_false_iff]
  cases last <;> simp

section Round

variable {i : ℕ}

/-- The server after this one is the next one of the round, which ends back at its first. -/
theorem round_next (hserver : (t.lst.list.rotate i).head? = some server)
    (hround : t.lst.list.rotate i = done ++ cur :: rest) : ∃ as bs, t.lst.list = as ++ cur :: bs
      ∧ bs.headD (t.lst.list.headD cur) = rest.headD server := by
  obtain ⟨as, bs, hlist, hnext⟩ := Cyclic.exists_next hround
  refine ⟨as, bs, hlist, hnext.trans ?_⟩
  rw [List.headD_eq_head?_getD (l := t.lst.list.rotate i), hserver, Option.getD_some]

theorem round_over (hn : t.lst.list.Nodup) (hserver : (t.lst.list.rotate i).head? = some server)
    (hround : t.lst.list.rotate i = done ++ cur :: rest) :
    rest.headD server = server ↔ rest = [] := by
  rcases rest with _ | ⟨q, rest⟩
  · simp
  · simp only [List.headD_cons, reduceCtorEq, iff_false]
    rintro rfl
    rw [hround] at hserver
    have hn' : (done ++ cur :: q :: rest).Nodup := hround ▸ List.nodup_rotate.2 hn
    rcases done with _ | ⟨d, done⟩
    · simp_all
    · simp_all

theorem findAvaliableLoop_eq (hn : t.lst.list.Nodup)
    (hserver : (t.lst.list.rotate i).head? = some server) :
    ∀ (rest done : List ServerPtr) (cur : ServerPtr) (fuel : ℕ) (checking : Option ServerPtr),
      t.lst.list.rotate i = done ++ cur :: rest → rest.length < fuel →
      findAvaliableLoop t server m last fuel cur checking =
        ((cur :: rest).find? (t.stops m last), remembered t m last (cur :: rest) checking)
  | rest, done, cur, fuel + 1, checking, hround, hf => by
    obtain ⟨as, bs, hlist, hnext⟩ := round_next hserver hround
    have hcur : cur ∉ as := fun hm => by
      rw [hlist, List.nodup_append] at hn
      exact hn.2.2 cur hm cur (by simp) rfl
    rw [findAvaliableLoop, getLcxlListHead, hlist, nextServer_eq hcur, ← hlist, hnext]
    simp only [← stops_iff, round_over hn hserver hround]
    rcases hstop : t.stops m last cur
    · have hnot : ¬ false = true := by simp
      simp only [if_neg hnot, List.find?_cons, hstop, remembered_cons hstop]
      rcases rest with _ | ⟨q, rest⟩
      · rw [if_pos rfl]
        rfl
      · rw [if_neg (List.cons_ne_nil q rest)]
        exact findAvaliableLoop_eq hn hserver rest (done ++ [cur]) q fuel _ (by simp [hround])
          (by simpa using hf)
    · simp [hstop, remembered]

theorem locking_findAvaliableLoop_eq (hring : Ring.IsRing ring.links ring.head t.lst.list)
    (hserver : (t.lst.list.rotate i).head? = some server) :
    ∀ (rest done : List ServerPtr) (cur : ServerPtr) (fuel : ℕ) (checking : Option ServerPtr),
      t.lst.list.rotate i = done ++ cur :: rest → rest.length < fuel →
      Locking.findAvaliableLoop ring t server m last fuel cur checking = SpinM.returns
        ((cur :: rest).find? (t.stops m last), remembered t m last (cur :: rest) checking)
        (scanCalls t m last (cur :: rest))
  | rest, done, cur, fuel + 1, checking, hround, hf => by
    have hn : t.lst.list.Nodup := (List.nodup_cons.1 hring.nodup).2
    obtain ⟨as, bs, hlist, hnext⟩ := round_next hserver hround
    have hlink := hring
    rw [hlist] at hlink
    rw [Locking.findAvaliableLoop]
    simp only [← stops_iff, SpinM.acquire_bind, SpinM.release_bind]
    rcases hstop : t.stops m last cur
    · have hnot : ¬ false = true := by simp
      simp only [if_neg hnot, flink_bind hlink, ← hlist, hnext, round_over hn hserver hround,
        List.find?_cons, hstop, remembered_cons hstop, scanCalls_cons hstop]
      rcases rest with _ | ⟨q, rest⟩
      · rw [if_pos rfl]
        rfl
      · rw [if_neg (List.cons_ne_nil q rest), List.headD_cons,
          locking_findAvaliableLoop_eq hring hserver rest (done ++ [cur]) q fuel _
            (by simp [hround]) (by simpa using hf)]
        rfl
    · simp [hstop, remembered, scanCalls, SpinM.pure_eq]

end Round

theorem choice_eq (order : List ServerPtr) :
    (order.find? (t.stops m last) <|> remembered t m last order none) = t.choice m last order := by
  have hstops : t.stops m last = if last then t.ready m else t.avaliable m := by
    funext p
    cases last <;> simp [ServerTable.stops, ServerTable.ready]
  unfold ServerTable.choice
  rcases hfind : order.find? (t.stops m last) with _ | p
  · -- Nothing stopped the search, so what was remembered is the last available server.
    have hnone : ∀ p ∈ order, t.stops m last p = false := by simpa using hfind
    have hall : (order.takeWhile fun p => !t.stops m last p) = order := by
      simpa [List.takeWhile_eq_self_iff] using hnone
    rw [hstops] at hfind hnone
    rw [remembered, hall]
    cases last
    · have hrev : order.reverse.find? (t.avaliable m) = none := by simpa using hnone
      simpa [hrev] using hfind.symm
    · have hrev : order.reverse.find? (t.avaliable m) =
          order.reverse.find? fun p => t.avaliable m p && t.checking p := by
        refine List.find?_congr fun p hp => ?_
        have := hnone p (List.mem_reverse.1 hp)
        simp only [if_true, ServerTable.ready] at this
        cases ha : t.avaliable m p
        · rfl
        · simpa [ha] using this
      simp only [if_true] at hfind
      simp [hfind, hrev]
  · rw [hstops] at hfind
    split_ifs at hfind ⊢ <;> rw [hfind] <;> rfl

theorem head?_round (hs : server ∈ t.lst.list) : (t.round server).head? = some server := by
  rw [ServerTable.round, List.head?_rotate (List.idxOf_lt_length_of_mem hs),
    List.getElem?_eq_getElem (List.idxOf_lt_length_of_mem hs), List.getElem_idxOf]

theorem exists_round (hs : server ∈ t.lst.list) : ∃ rest, t.round server = server :: rest
    ∧ rest.length < t.lst.list.length := by
  obtain ⟨rest, hr⟩ := List.head?_eq_some_iff.1 (head?_round hs)
  refine ⟨rest, hr, ?_⟩
  rw [← List.length_rotate t.lst.list (t.lst.list.idxOf server), ← ServerTable.round, hr]
  simp

/-- A search returns the choice of the round from the server it begins at. -/
theorem scanned_eq (hn : t.lst.list.Nodup) (hs : server ∈ t.lst.list) :
    scanned t server m last = t.choice m last (t.round server) := by
  obtain ⟨rest, hr, hlen⟩ := exists_round hs
  rw [scanned, findAvaliableLoop_eq hn (head?_round hs) rest [] server _ none hr hlen, ← hr]
  exact choice_eq _

/-- With the locks it takes, a search in memory is the search of the list. -/
theorem locking_findAvaliable_eq (hring : Ring.IsRing ring.links ring.head t.lst.list)
    (hs : server ∈ t.lst.list) {fuel : ℕ} (hf : t.lst.list.length ≤ fuel) :
    Locking.findAvaliableServerFormCurrentServer ring fuel t server m last = SpinM.returns
      (findAvaliableServerFormCurrentServer t server m last)
      (scanCalls t m last (t.round server)) := by
  have hn : t.lst.list.Nodup := (List.nodup_cons.1 hring.nodup).2
  obtain ⟨rest, hr, hlen⟩ := exists_round hs
  have hloop : Locking.findAvaliableLoop ring (lockServerList t) server m last fuel server none =
      SpinM.returns ((t.round server).find? (t.stops m last),
        remembered t m last (t.round server) none) (scanCalls t m last (t.round server)) := by
    rw [hr]
    exact locking_findAvaliableLoop_eq (t := lockServerList t) hring (head?_round hs) rest [] server
      fuel none hr (by omega)
  rw [findAvaliable_eq, scanned_eq (t := lockServerList t) hn hs,
    Locking.findAvaliableServerFormCurrentServer, hloop]
  simp only [SpinM.returns_bind, SpinM.pure_eq, SpinM.after_returns, List.append_nil]
  rw [choice_eq]
  rfl

end LcxlNetLoader
