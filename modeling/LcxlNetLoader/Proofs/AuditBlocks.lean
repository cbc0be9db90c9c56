import Mathlib.Tactic
import LcxlNetLoader.Audit

/-!
# The links of the audited blocks

The links of the blocks are those of a doubly linked list, so linking a block and unlinking one does
to the list of the blocks that are linked what it should, and leaves what else the blocks hold.
-/

namespace LcxlNetLoader

open DoublyLinked

/-- The block without its links. -/
def FilterdAllocation.payload (b : FilterdAllocation) : FilterdAllocation :=
  { b with next := none, prev := none }

namespace Audit

variable {s s' : Audit} {p q : AllocPtr} {b : FilterdAllocation}

/-- The links. -/
def store (s : Audit) : Store AllocPtr where
  next p := (s.block p).bind (·.next)
  prev p := (s.block p).bind (·.prev)
  head := s.filterdMemoryHead
  tail := s.filterdMemoryTail

/-- Only links, and the ends, are other ones. -/
structure Relinked (s s' : Audit) : Prop where
  payload : ∀ q, (s'.block q).map (·.payload) = (s.block q).map (·.payload)
  count : s'.filterdAllocCount = s.filterdAllocCount
  initDone : s'.filterdInitDone = s.filterdInitDone
  breaks : s'.breaks = s.breaks

theorem Relinked.isSome (h : Relinked s s') (hq : s.block q ≠ none) : s'.block q ≠ none := by
  intro hn
  have := h.payload q
  rw [hn, Option.map_none, eq_comm, Option.map_eq_none_iff] at this
  exact hq this

theorem update_bind (m : AllocPtr → Option FilterdAllocation) (p : AllocPtr)
    (b : FilterdAllocation) (g : FilterdAllocation → Option AllocPtr) :
    (fun q => (Function.update m p (some b) q).bind g)
      = Function.update (fun q => (m q).bind g) p (g b) := by
  funext q
  by_cases hq : q = p
  · rw [hq, Function.update_self, Function.update_self, Option.bind_some]
  · rw [Function.update_of_ne hq, Function.update_of_ne hq]

theorem update_payload (m : AllocPtr → Option FilterdAllocation) {p : AllocPtr}
    {b b' : FilterdAllocation} (hb : m p = some b) (h : b'.payload = b.payload) (q : AllocPtr) :
    (Function.update m p (some b') q).map (·.payload) = (m q).map (·.payload) := by
  by_cases hq : q = p
  · rw [hq, Function.update_self, hb, Option.map_some, Option.map_some, h]
  · rw [Function.update_of_ne hq]

theorem store_next (hb : s.block p = some b) : s.store.next p = b.next := by
  show (s.block p).bind _ = _
  rw [hb, Option.bind_some]

theorem store_prev (hb : s.block p = some b) : s.store.prev p = b.prev := by
  show (s.block p).bind _ = _
  rw [hb, Option.bind_some]

theorem modify_next (hp : s.block p ≠ none) (v : Option AllocPtr) :
    ∃ s', (s.modify p fun b => { b with next := v }) = some s'
      ∧ s'.store = { s.store with next := Function.update s.store.next p v }
      ∧ Relinked s s' := by
  obtain ⟨b, hb⟩ := Option.ne_none_iff_exists'.1 hp
  rw [modify, hb, Option.map_some]
  refine ⟨_, rfl, ?_, update_payload s.block hb rfl, rfl, rfl, rfl⟩
  simp only [store, update_bind, Store.mk.injEq, true_and, and_true]
  exact Function.update_eq_self_iff.2 (store_prev hb).symm

theorem modify_prev (hp : s.block p ≠ none) (v : Option AllocPtr) :
    ∃ s', (s.modify p fun b => { b with prev := v }) = some s'
      ∧ s'.store = { s.store with prev := Function.update s.store.prev p v }
      ∧ Relinked s s' := by
  obtain ⟨b, hb⟩ := Option.ne_none_iff_exists'.1 hp
  rw [modify, hb, Option.map_some]
  refine ⟨_, rfl, ?_, update_payload s.block hb rfl, rfl, rfl, rfl⟩
  simp only [store, update_bind, Store.mk.injEq, and_true]
  exact Function.update_eq_self_iff.2 (store_next hb).symm

/-- A block is linked behind the last one. -/
theorem linkBlock_spec (hb : s.block p = some b) (hn : b.next = none)
    (ht : ∀ t ∈ s.filterdMemoryTail, t ≠ p ∧ s.block t ≠ none) :
    ∃ s', s.linkBlock p = some s' ∧ s'.store = s.store.pushBack p
      ∧ s'.filterdAllocCount = s.filterdAllocCount + 1
      ∧ (∀ q, (s'.block q).map (·.payload) = (s.block q).map (·.payload))
      ∧ s'.filterdInitDone = s.filterdInitDone := by
  have hp : s.block p ≠ none := by simp [hb]
  have hnext : Function.update s.store.next p none = s.store.next :=
    Function.update_eq_self_iff.2 ((store_next hb).trans hn).symm
  obtain ⟨s₁, h₁, hstore₁, hsame₁⟩ := modify_prev hp s.filterdMemoryTail
  have htail₁ : s₁.filterdMemoryTail = s.filterdMemoryTail := congrArg Store.tail hstore₁
  unfold linkBlock
  simp only [Option.bind_eq_bind, h₁, Option.bind_some, htail₁]
  rcases htail : s.filterdMemoryTail with _ | t
  · refine ⟨_, rfl, ?_, by rw [hsame₁.count], hsame₁.payload, hsame₁.initDone⟩
    have htail' : s.store.tail = none := htail
    show ({ s₁.store with head := some p, tail := some p } : Store AllocPtr) = _
    rw [hstore₁, htail]
    simp only [Store.pushBack, htail', hnext]
  · obtain ⟨htp, htb⟩ := ht t htail
    obtain ⟨s₂, h₂, hstore₂, hsame₂⟩ := modify_next (hsame₁.isSome htb) (some p)
    simp only [h₂, Option.bind_some]
    refine ⟨_, rfl, ?_, by rw [hsame₂.count, hsame₁.count], fun q => ?_, ?_⟩
    · have htail' : s.store.tail = some t := htail
      show ({ s₂.store with tail := some p } : Store AllocPtr) = _
      rw [hstore₂, hstore₁, htail]
      simp only [Store.pushBack, htail', hnext]
    · rw [hsame₂.payload, hsame₁.payload]
    · rw [hsame₂.initDone, hsame₁.initDone]

/-- A block that is linked is unlinked, and its signature says so. -/
theorem unlinkBlock_spec {as bs : List AllocPtr} (h : s.store.Represents (as ++ p :: bs))
    (hall : ∀ q ∈ as ++ p :: bs, s.block q ≠ none) (hb : s.block p = some b)
    (hsig : b.signature = filterdMemorySignature) :
    ∃ s', s.unlinkBlock p = some (s', true) ∧ s'.store = s.store.unlink p
      ∧ s'.filterdAllocCount = s.filterdAllocCount - 1
      ∧ (∀ q ≠ p, (s'.block q).map (·.payload) = (s.block q).map (·.payload))
      ∧ (s'.block p).map (·.signature) = some deadSignature
      ∧ s'.filterdInitDone = s.filterdInitDone ∧ s'.breaks = s.breaks := by
  obtain ⟨hprev, hnext⟩ := h.links as p bs rfl
  obtain ⟨-, hcons, hdisjoint⟩ := List.nodup_append.1 h.nodup
  have hq : ∀ q, s.store.prev p = some q → q ≠ p ∧ s.block q ≠ none := fun q hq => by
    have hmem : q ∈ as := List.mem_of_getLast? (hprev ▸ hq)
    exact ⟨hdisjoint q hmem p (by simp), hall q (by simp [hmem])⟩
  have hr : ∀ r, s.store.next p = some r → r ≠ p ∧ s.block r ≠ none := fun r hr => by
    have hmem : r ∈ bs := List.mem_of_head? (hnext ▸ hr)
    refine ⟨?_, hall r (by simp [hmem])⟩
    rintro rfl
    exact (List.nodup_cons.1 hcons).1 hmem
  -- the signature
  let b₁ : FilterdAllocation := { b with signature := deadSignature }
  let s₁ : Audit := { s with block := Function.update s.block p (some b₁) }
  have h₁ : (s.modify p fun b => { b with signature := deadSignature }) = some s₁ := by
    rw [modify, hb, Option.map_some]
  have hstore₁ : s₁.store = s.store := by
    simp only [store, s₁, update_bind, Store.mk.injEq, and_true]
    exact ⟨Function.update_eq_self_iff.2 (store_next hb).symm,
      Function.update_eq_self_iff.2 (store_prev hb).symm⟩
  -- the block in front
  obtain ⟨s₂, h₂, hstore₂, hsame₂⟩ : ∃ s₂, s₁.bridgeNext b = some s₂
        ∧ s₂.store = { s.store with
            next := (s.store.unlink p).next
            head := (s.store.unlink p).head }
        ∧ Relinked s₁ s₂ := by
    have hbprev := store_prev hb
    unfold bridgeNext
    rcases hbp : b.prev with _ | q
    · refine ⟨_, rfl, ?_, ⟨fun _ => rfl, rfl, rfl, rfl⟩⟩
      show ({ s₁.store with head := b.next } : Store AllocPtr) = _
      rw [hstore₁]
      simp only [Store.unlink, hbprev, hbp, store_next hb, if_true]
    · obtain ⟨hqp, hqb⟩ := hq q (hbprev.trans hbp)
      have hqb₁ : s₁.block q ≠ none := by
        simp only [s₁]
        rwa [Function.update_of_ne hqp]
      obtain ⟨s₂, h₂, hstore₂, hsame₂⟩ := modify_next hqb₁ b.next
      refine ⟨s₂, h₂, ?_, hsame₂⟩
      rw [hstore₂, hstore₁]
      simp only [Store.unlink, hbprev, hbp, store_next hb, reduceCtorEq, if_false]
  -- and the one behind
  obtain ⟨b₂, hb₂, hpayload₂⟩ : ∃ b₂, s₂.block p = some b₂ ∧ b₂.payload = b₁.payload := by
    have hpayload := hsame₂.payload p
    simp only [s₁, Function.update_self, Option.map_some, Option.map_eq_some_iff] at hpayload
    exact hpayload
  have hnext₂ : b₂.next = s.store.next p := by
    rw [← store_next hb₂, hstore₂]
    show (s.store.unlink p).next p = _
    rw [Store.unlink_next, if_neg fun h => (hq p h).1 rfl]
  have hprev₂ : b₂.prev = s.store.prev p := by
    rw [← store_prev hb₂, hstore₂]
  obtain ⟨s₃, h₃, hstore₃, hsame₃⟩ : ∃ s₃, s₂.bridgePrev b₂ = some s₃
        ∧ s₃.store = s.store.unlink p ∧ Relinked s₂ s₃ := by
    unfold bridgePrev
    rw [hnext₂, hprev₂]
    rcases hbn : s.store.next p with _ | r
    · refine ⟨_, rfl, ?_, ⟨fun _ => rfl, rfl, rfl, rfl⟩⟩
      show ({ s₂.store with tail := s.store.prev p } : Store AllocPtr) = _
      rw [hstore₂]
      simp only [Store.unlink, hbn, if_true]
    · have hrb₂ : s₂.block r ≠ none := by
        obtain ⟨hrp, hrb⟩ := hr r hbn
        refine hsame₂.isSome ?_
        simp only [s₁]
        rwa [Function.update_of_ne hrp]
      obtain ⟨s₃, h₃, hstore₃, hsame₃⟩ := modify_prev hrb₂ (s.store.prev p)
      refine ⟨s₃, h₃, ?_, hsame₃⟩
      rw [hstore₃, hstore₂]
      simp only [Store.unlink, hbn, reduceCtorEq, if_false]
  have hsame : Relinked s₁ s₃ :=
    ⟨fun q => (hsame₃.payload q).trans (hsame₂.payload q), hsame₃.count.trans hsame₂.count,
      hsame₃.initDone.trans hsame₂.initDone, hsame₃.breaks.trans hsame₂.breaks⟩
  refine ⟨{ s₃ with filterdAllocCount := s₃.filterdAllocCount - 1 }, ?_, hstore₃,
    by rw [hsame.count], fun q hqp => ?_, ?_, hsame.initDone, hsame.breaks⟩
  · unfold unlinkBlock
    simp only [hb, hsig, h₁, h₂, hb₂, h₃, Option.bind_eq_bind, Option.bind_some, ne_eq,
      not_true_eq_false, if_false]
    rfl
  · rw [hsame.payload q]
    simp only [s₁]
    rw [Function.update_of_ne hqp]
  · have hpayload := hsame.payload p
    simp only [s₁, Function.update_self, Option.map_some, Option.map_eq_some_iff] at hpayload
    obtain ⟨b₃, hb₃, hpayload⟩ := hpayload
    rw [hb₃, Option.map_some]
    exact congrArg (fun b => some b.signature) hpayload

/-- The block is there and says who asked for it. -/
def Recorded (s : Audit) (p : AllocPtr) (r : AllocRequest) : Prop :=
  ∃ b, s.block p = some b ∧ b.Records r

def Dead (s : Audit) (p : AllocPtr) : Prop :=
  ∃ b, s.block p = some b ∧ b.signature = deadSignature

variable {r : AllocRequest}

theorem Recorded.isSome (h : s.Recorded p r) : s.block p ≠ none := by
  obtain ⟨b, hb, -⟩ := h
  simp [hb]

theorem Dead.isSome (h : s.Dead p) : s.block p ≠ none := by
  obtain ⟨b, hb, -⟩ := h
  simp [hb]

theorem exists_of_payload (h : (s'.block p).map (·.payload) = (s.block p).map (·.payload))
    (hb : s.block p = some b) : ∃ b', s'.block p = some b' ∧ b'.payload = b.payload := by
  rw [hb, Option.map_some, Option.map_eq_some_iff] at h
  exact h

theorem Recorded.congr (h : (s'.block p).map (·.payload) = (s.block p).map (·.payload)) :
    s.Recorded p r → s'.Recorded p r := by
  rintro ⟨b, hb, hr⟩
  obtain ⟨b', hb', hp⟩ := exists_of_payload h hb
  have : b'.payload.Records r := hp ▸ hr
  exact ⟨b', hb', this⟩

theorem Dead.congr (h : (s'.block p).map (·.payload) = (s.block p).map (·.payload)) :
    s.Dead p → s'.Dead p := by
  rintro ⟨b, hb, hd⟩
  obtain ⟨b', hb', hp⟩ := exists_of_payload h hb
  have : b'.payload.signature = deadSignature := hp ▸ hd
  exact ⟨b', hb', this⟩

theorem Dead.not_recorded (h : s.Dead p) : ¬ s.Recorded p r := by
  rintro ⟨b, hb, hr⟩
  obtain ⟨b', hb', hd⟩ := h
  obtain rfl : b = b' := Option.some.inj (hb.symm.trans hb')
  have := hr.1.symm.trans hd
  revert this
  decide

/-- A block that is gone, or is not linked any more, does not matter to the links of the others. -/
theorem store_update {ps : List AllocPtr} (h : s.store.Represents ps) (hp : p ∉ ps)
    (b : Option FilterdAllocation) :
    ({ s with block := Function.update s.block p b } : Audit).store.Represents ps := by
  have hne : ∀ q ∈ ps, q ≠ p := fun q hq => by
    rintro rfl
    exact hp hq
  refine h.congr (fun q hq => ?_) (fun q hq => ?_) rfl rfl <;>
    · simp only [store]
      rw [Function.update_of_ne (hne q hq)]

/-- A block that says the same and has the links it had is as it was. -/
theorem block_eq (h : (s'.block p).map (·.payload) = (s.block p).map (·.payload))
    (hn : s'.store.next p = s.store.next p) (hp : s'.store.prev p = s.store.prev p) :
    s'.block p = s.block p := by
  rcases hb : s.block p with _ | b
  · rw [hb, Option.map_none, Option.map_eq_none_iff] at h
    exact h
  · obtain ⟨b', hb', hb''⟩ := exists_of_payload h hb
    rw [store_next hb, store_next hb'] at hn
    rw [store_prev hb, store_prev hb'] at hp
    rw [hb']
    cases b
    cases b'
    simp_all [FilterdAllocation.payload]

/-- A block that is linked is unlinked and freed, and the blocks that are not linked stay. -/
theorem freeBlock_spec {as bs : List AllocPtr} (h : s.store.Represents (as ++ p :: bs))
    (hall : ∀ q ∈ as ++ p :: bs, s.block q ≠ none) (hb : s.block p = some b)
    (hsig : b.signature = filterdMemorySignature) :
    ∃ s', s.freeBlock p = some s' ∧ s'.store.Represents (as ++ bs)
      ∧ s'.filterdAllocCount = s.filterdAllocCount - 1
      ∧ s'.filterdInitDone = s.filterdInitDone ∧ s'.breaks = s.breaks ∧ s'.block p = none
      ∧ (∀ q ≠ p, (s'.block q).map (·.payload) = (s.block q).map (·.payload))
      ∧ ∀ q ∉ as ++ p :: bs, s'.block q = s.block q := by
  obtain ⟨hprev, hnext⟩ := h.links as p bs rfl
  obtain ⟨s₁, h₁, hstore, hcount, hpayload, hdead, hinit, hbreaks⟩ :=
    unlinkBlock_spec h hall hb hsig
  obtain ⟨b₁, hb₁, -⟩ := Option.map_eq_some_iff.1 hdead
  have hl : p ∉ as ++ bs := by
    have hn := h.nodup
    rw [List.nodup_middle, List.nodup_cons] at hn
    exact hn.1
  have hlist : s₁.store.Represents (as ++ bs) := hstore ▸ h.unlink
  unfold freeBlock
  simp only [h₁, Option.bind_eq_bind, Option.bind_some, if_true, ndisFreeMemory, hb₁,
    Option.map_some]
  refine ⟨_, rfl, store_update hlist hl none, hcount, hinit, hbreaks, Function.update_self ..,
    fun q hq => ?_, fun q hq => ?_⟩
  · dsimp only
    rw [Function.update_of_ne hq]
    exact hpayload q hq
  · have hqp : q ≠ p := by
      rintro rfl
      exact hq (by simp)
    dsimp only
    rw [Function.update_of_ne hqp]
    refine block_eq (hpayload q hqp) ?_ ?_
    · rw [hstore, Store.unlink_next, if_neg]
      intro hn
      exact hq (List.mem_append_left _ (List.mem_of_getLast? (hprev ▸ hn)))
    · rw [hstore, Store.unlink_prev, if_neg]
      intro hn
      exact hq (by simp [show q ∈ bs from List.mem_of_head? (hnext ▸ hn)])

/-- Either there is no block, or it is one the caller has not linked yet. -/
theorem allocBlock_cases (z : UInt32) (s : Audit) (r : AllocRequest)
    (memory : Option (AllocPtr × FilterdAllocation)) :
    s.allocBlock z r memory = (s, none) ∨
      ∃ p old b, memory = some (p, old) ∧ b.Records r ∧ b.next = none
        ∧ s.allocBlock z r memory
          = ({ s with block := Function.update s.block p (some b) }, some p) := by
  unfold allocBlock
  by_cases hz : r.size + z < r.size
  · exact .inl (if_pos hz)
  · rcases memory with _ | ⟨p, old⟩
    · exact .inl (if_neg hz)
    · exact .inr ⟨p, old, _, rfl, ⟨rfl, rfl, rfl, rfl, rfl⟩, rfl, if_neg hz⟩

end Audit

end LcxlNetLoader
