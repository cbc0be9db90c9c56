import LcxlNetLoader.Proofs.AuditBlocks

/-!
# The audit knows the blocks that are out

While one caller alone creates the lock, one at most is ever inside it (`Locked`), so the blocks
that are linked are those handed out and not freed since, whoever is in between two of its steps
(`Kept`). So a shutdown frees what is out, and only that.
-/

namespace LcxlNetLoader

open DoublyLinked

namespace Auditing

open Audit

variable {ι : Type*} [DecidableEq ι] {z : UInt32} {s s' : Auditing ι} {a : Audit} {i j : ι}
  {x : AuditPosition} {k k' : SpinLock ι} {d d' : Bool} {p : AllocPtr} {r : AllocRequest}
  {l l' : List (AllocPtr × AllocRequest)} {e : AuditStep ι}

/-! ## The lock -/

/-- What the position of a caller tells of the lock and of `filterdInitDone`. -/
def Agrees (k : SpinLock ι) (d : Bool) (i : ι) : AuditPosition → Prop
  | .creating _ => k = .uncreated
  | .marking _ => k ≠ .uncreated ∧ k ≠ .held i
  | .asking _ => d = true ∧ k ≠ .held i
  | .linking _ _ | .linked | .unlinking _ | .unlinked _ | .rejecting => k = .held i
  | .idle | .allocated _ _ | .freeing _ | .breaking => k ≠ .held i

/-- One caller creates the lock, before it is asked for, and whoever is inside has it. -/
structure Locked (s : Auditing ι) : Prop where
  agrees : ∀ i, Agrees s.filterdMemoryLock s.audit.filterdInitDone i (s.position i)
  creator : ∀ i j, (s.position i).Creates → (s.position j).Creates → i = j
  done : s.audit.filterdInitDone = true → s.filterdMemoryLock ≠ .uncreated
  undone : s.audit.filterdInitDone = false →
    s.filterdMemoryLock = .uncreated ∨ ∃ i r, s.position i = .marking r

omit [DecidableEq ι] in
theorem Agrees.frame (h : Agrees k d j x) (hheld : k' = .held j ↔ k = .held j)
    (hk : x.Creates → (k' = .uncreated ↔ k = .uncreated)) (hd : d = true → d' = true) :
    Agrees k' d' j x := by
  cases x <;> simp_all [Agrees, AuditPosition.Creates]

omit [DecidableEq ι] in
theorem Agrees.inside_iff (h : Agrees k d i x) : x.Inside ↔ k = .held i := by
  cases x <;> simp_all [Agrees, AuditPosition.Inside]

omit [DecidableEq ι] in
theorem Locked.unheld (h : s.Locked) (hi : ¬ (s.position i).Inside) :
    s.filterdMemoryLock ≠ .held i :=
  fun hk => hi ((h.agrees i).inside_iff.2 hk)

omit [DecidableEq ι] in
theorem Locked.alone (h : s.Locked) (hi : (s.position i).Inside) (hj : (s.position j).Inside) :
    i = j := by
  have hheld := ((h.agrees i).inside_iff.1 hi).symm.trans ((h.agrees j).inside_iff.1 hj)
  exact SpinLock.held.inj hheld

/-- A caller goes on outside the creation. The lock is as it was, or comes into its hands, or goes
out of them. -/
theorem Locked.move (h : s.Locked) (hd : a.filterdInitDone = s.audit.filterdInitDone)
    (hheld : ∀ j ≠ i, k = .held j ↔ s.filterdMemoryLock = .held j)
    (hk : k = .uncreated ↔ s.filterdMemoryLock = .uncreated)
    (hi : ¬ (s.position i).Creates) (hx : ¬ x.Creates)
    (hagrees : Agrees k s.audit.filterdInitDone i x) :
    Locked ⟨a, k, Function.update s.position i x⟩ := by
  have hne : ∀ j, (Function.update s.position i x j).Creates → j ≠ i := by
    rintro j hj rfl
    rw [Function.update_self] at hj
    exact hx hj
  refine ⟨fun j => ?_, fun j j' hj hj' => ?_, fun hdone => ?_, fun hdone => ?_⟩
  · dsimp only
    rw [hd]
    by_cases hj : j = i
    · rw [hj, Function.update_self]
      exact hagrees
    · rw [Function.update_of_ne hj]
      exact (h.agrees j).frame (hheld j hj) (fun _ => hk) id
  · refine h.creator j j' ?_ ?_
    · have hji := hne j hj
      dsimp only at hj
      rwa [Function.update_of_ne hji] at hj
    · have hji := hne j' hj'
      dsimp only at hj'
      rwa [Function.update_of_ne hji] at hj'
  · exact fun hn => h.done (hd ▸ hdone) (hk.1 hn)
  · refine (h.undone (hd ▸ hdone)).imp hk.2 ?_
    rintro ⟨j, r, hj⟩
    have hji : j ≠ i := by
      rintro rfl
      rw [hj] at hi
      exact hi trivial
    exact ⟨j, r, (Function.update_of_ne hji ..).trans hj⟩

/-- A caller that does not create the lock leaves it alone. -/
theorem Locked.go (h : s.Locked) (hd : a.filterdInitDone = s.audit.filterdInitDone)
    (hi : ¬ (s.position i).Creates) (hx : ¬ x.Creates)
    (hagrees : Agrees s.filterdMemoryLock s.audit.filterdInitDone i x) :
    Locked { s.move i x with audit := a } :=
  h.move hd (fun _ _ => .rfl) .rfl hi hx hagrees

theorem Locked.acquire (h : s.Locked) (hfree : s.filterdMemoryLock = .free)
    (hi : ¬ (s.position i).Creates) (hx : x.Inside) :
    Locked { s.move i x with filterdMemoryLock := .held i } := by
  refine h.move rfl (fun j hj => ?_) ?_ hi ?_ ?_
  · simp [hfree, Ne.symm hj]
  · simp [hfree]
  · cases x <;> first | exact id | exact absurd hx id
  · cases x <;> first | rfl | exact absurd hx id

theorem Locked.release (h : s.Locked) (hi : (s.position i).Inside) :
    Locked { s.move i (s.position i).outside with filterdMemoryLock := .free } := by
  have hheld := (h.agrees i).inside_iff.1 hi
  refine h.move rfl (fun j hj => ?_) ?_ ?_ ?_ ?_
  · simp [hheld, Ne.symm hj]
  · simp [hheld]
  · rcases hx : s.position i <;> rw [hx] at hi <;> first | exact id | exact absurd hi id
  · rcases hx : s.position i <;> exact id
  · rcases hx : s.position i <;> simp [AuditPosition.outside, Agrees]

/-- Nobody else creates the lock, so it is not there where `filterdInitDone` is not set. -/
theorem Locked.enter (h : s.Locked) (hi : s.position i = .idle)
    (halone : ∀ j, ¬ (s.position j).Creates) :
    Locked (s.move i (if s.audit.filterdInitDone then .asking r else .creating r)) := by
  have hk := h.unheld (i := i) (by simp [hi, AuditPosition.Inside])
  rcases hd : s.audit.filterdInitDone with _ | _
  · have hun : s.filterdMemoryLock = .uncreated := by
      refine (h.undone hd).resolve_right ?_
      rintro ⟨j, r', hj⟩
      exact halone j (by rw [hj]; trivial)
    refine ⟨fun j => ?_, fun j j' hj hj' => ?_, fun hdone => ?_, fun _ => .inl hun⟩
    · simp only [Auditing.move, Bool.false_eq_true, if_false]
      by_cases hj : j = i
      · rw [hj, Function.update_self]
        exact hun
      · rw [Function.update_of_ne hj]
        exact h.agrees j
    · have heq : ∀ j, (Function.update s.position i (.creating r) j).Creates → j = i := by
        intro j hj
        by_contra hji
        rw [Function.update_of_ne hji] at hj
        exact halone j hj
      exact (heq j hj).trans (heq j' hj').symm
    · exact absurd (hd.symm.trans hdone) Bool.false_ne_true
  · exact h.go rfl (by simp [hi, AuditPosition.Creates]) id ⟨hd, hk⟩

/-- The creator goes on. -/
theorem Locked.create (h : s.Locked) (hi : (s.position i).Creates)
    (hheld : ∀ j ≠ i, k = .held j ↔ s.filterdMemoryLock = .held j)
    (hdone : a.filterdInitDone = true → k ≠ .uncreated)
    (hundone : a.filterdInitDone = false → k = .uncreated ∨ ∃ r, x = .marking r)
    (hmono : s.audit.filterdInitDone = true → a.filterdInitDone = true)
    (hagrees : Agrees k a.filterdInitDone i x) :
    Locked ⟨a, k, Function.update s.position i x⟩ := by
  have hothers : ∀ j, (Function.update s.position i x j).Creates → j = i := by
    intro j hj
    by_contra hji
    rw [Function.update_of_ne hji] at hj
    exact hji (h.creator j i hj hi)
  refine ⟨fun j => ?_, fun j j' hj hj' => (hothers j hj).trans (hothers j' hj').symm, hdone,
    fun hd => (hundone hd).imp_right ?_⟩
  · dsimp only
    by_cases hj : j = i
    · rw [hj, Function.update_self]
      exact hagrees
    · rw [Function.update_of_ne hj]
      exact (h.agrees j).frame (hheld j hj) (fun hc => absurd (h.creator j i hc hi) hj) hmono
  · rintro ⟨r, rfl⟩
    exact ⟨i, r, Function.update_self ..⟩

omit [DecidableEq ι] in
theorem Locked.init : (init : Auditing ι).Locked :=
  ⟨fun _ => by simp [Auditing.init, Agrees], fun _ _ hi => absurd hi id, nofun, fun _ => .inl rfl⟩

/-- Of what is done to the links only `filterdInitDone` matters to the lock. -/
theorem Locked.step (h : s.Locked) (he : s.Proper e) (hs : s.exec z e = some s')
    (hlink : ∀ i p r, e = .link i p r → s'.audit.filterdInitDone = s.audit.filterdInitDone)
    (hunlink : ∀ i p, e = .unlink i p → s'.audit.filterdInitDone = s.audit.filterdInitDone) :
    s'.Locked := by
  cases e with
  | enter i r =>
    cases hs
    exact h.enter he.1 he.2
  | create i r =>
    have hi : s.position i = .creating r := he
    have hun : s.filterdMemoryLock = .uncreated := by
      have := h.agrees i
      rwa [hi] at this
    cases hs
    refine h.create (x := .marking r) ?_ ?_ ?_ ?_ id ?_
    · rw [hi]
      trivial
    · simp [hun]
    · simp
    · exact fun _ => .inr ⟨r, rfl⟩
    · simp [Agrees]
  | mark i r =>
    have hi : s.position i = .marking r := he
    have hagrees := h.agrees i
    rw [hi] at hagrees
    cases hs
    refine h.create (x := .asking r) ?_ (fun _ _ => .rfl) (fun _ => hagrees.1) ?_ (fun _ => rfl)
      ⟨rfl, hagrees.2⟩
    · rw [hi]
      trivial
    · rintro ⟨⟩
  | alloc i r memory =>
    have hk := h.unheld (i := i) (by rw [he.1]; exact id)
    simp only [exec] at hs
    rcases allocBlock_cases z s.audit r memory with heq | ⟨p, old, b, -, -, -, heq⟩ <;>
      rw [heq] at hs <;> cases hs
    · exact h.go rfl (by rw [he.1]; exact id) id hk
    · exact h.go rfl (by rw [he.1]; exact id) id hk
  | acquire i p r =>
    cases hs
    exact h.acquire he.2 (by rw [he.1]; exact id) trivial
  | link i p r =>
    have hi : s.position i = .linking p r := he
    have hk := h.agrees i
    rw [hi] at hk
    have hd := hlink i p r rfl
    obtain ⟨a, ha, rfl⟩ := Option.map_eq_some_iff.1 hs
    exact h.go hd (by rw [hi]; exact id) id hk
  | acquireToFree i p =>
    cases hs
    exact h.acquire he.2 (by rw [he.1]; exact id) trivial
  | unlink i p =>
    have hk := h.agrees i
    rw [he.1] at hk
    have hd := hunlink i p rfl
    obtain ⟨⟨a, unlinked⟩, ha, rfl⟩ := Option.map_eq_some_iff.1 hs
    refine h.go hd (by rw [he.1]; exact id) ?_ ?_
    · cases unlinked <;> exact id
    · cases unlinked <;> exact hk
  | release i =>
    cases hs
    refine h.release ?_
    rcases he with hi | ⟨p, hi⟩ | hi <;> rw [hi] <;> trivial
  | free i p =>
    have hi : s.position i = .freeing p := he
    have hk := h.unheld (i := i) (by rw [hi]; exact id)
    obtain ⟨a, ha, rfl⟩ := Option.map_eq_some_iff.1 hs
    obtain ⟨b, -, rfl⟩ := Option.map_eq_some_iff.1 ha
    exact h.go rfl (by rw [hi]; exact id) id hk
  | breakPoint i =>
    have hi : s.position i = .breaking := he
    have hk := h.unheld (i := i) (by rw [hi]; exact id)
    cases hs
    exact h.go rfl (by rw [hi]; exact id) id hk

/-! ## The blocks -/

/-- What a caller has in hand, while the blocks of `l` are out. -/
def Fits (a : Audit) (l : List (AllocPtr × AllocRequest)) : AuditPosition → Prop
  | .allocated p r | .linking p r =>
    p ∉ l.map Prod.fst ∧ a.Recorded p r ∧ a.store.next p = none
  | .unlinked p | .freeing p => a.Dead p
  | _ => True

/-- The blocks of `l` are out, and linked; any other block is in some caller's hands. -/
structure Kept (s : Auditing ι) (l : List (AllocPtr × AllocRequest)) : Prop where
  list : s.audit.store.Represents (l.map Prod.fst)
  count : s.audit.filterdAllocCount = UInt32.ofNat l.length
  out : ∀ p r, (p, r) ∈ l → s.audit.Recorded p r
  fits : ∀ i, Fits s.audit l (s.position i)
  distinct : ∀ i j p, (s.position i).block = some p → (s.position j).block = some p → i = j
  held : ∀ p, s.audit.block p ≠ none → p ∈ l.map Prod.fst ∨ ∃ i, (s.position i).block = some p
  initDone : s.audit.filterdInitDone = false → ∀ p, s.audit.block p = none

theorem Fits.isSome (h : Fits a l x) (hx : x.block = some p) : a.block p ≠ none := by
  cases x <;> cases hx
  case allocated | linking => exact h.2.1.isSome
  case unlinked | freeing => exact Dead.isSome h

/-- The others' steps leave a caller what it has. -/
theorem Fits.frame {a' : Audit} (h : Fits a l x)
    (hpayload : ∀ q, x.block = some q → (a'.block q).map (·.payload) = (a.block q).map (·.payload))
    (hnext : ∀ q, x.block = some q → q ∉ l.map Prod.fst → a'.store.next q = a.store.next q)
    (hl : ∀ q, x.block = some q → q ∈ l'.map Prod.fst → q ∈ l.map Prod.fst) : Fits a' l' x := by
  cases x
  case allocated q r | linking q r =>
    obtain ⟨hq, hr, hn⟩ := h
    exact ⟨fun hq' => hq (hl q rfl hq'), hr.congr (hpayload q rfl), (hnext q rfl hq).trans hn⟩
  case unlinked q | freeing q => exact Dead.congr (hpayload q rfl) h
  all_goals trivial

omit [DecidableEq ι] in
theorem Kept.isSome_of_mem (h : s.Kept l) (hp : p ∈ l.map Prod.fst) : s.audit.block p ≠ none := by
  obtain ⟨⟨p, r⟩, hm, rfl⟩ := List.mem_map.1 hp
  exact (h.out p r hm).isSome

omit [DecidableEq ι] in
theorem Kept.apart (h : s.Kept l) (hi : (s.position i).block = some p) :
    ∀ j ≠ i, ∀ q, (s.position j).block = some q → q ≠ p := by
  rintro j hj q hq rfl
  exact hj (h.distinct j i q hq hi)

omit [DecidableEq ι] in
theorem Kept.not_mem_of_held (h : s.Kept l) (hi : (s.position i).block = some p) :
    p ∉ l.map Prod.fst := by
  have hfit := h.fits i
  have hdead : s.audit.Dead p → p ∉ l.map Prod.fst := by
    rintro hd hp
    obtain ⟨⟨p, r⟩, hm, rfl⟩ := List.mem_map.1 hp
    exact hd.not_recorded (h.out p r hm)
  rcases hx : s.position i <;> rw [hx] at hfit hi <;> cases hi
  case allocated | linking => exact hfit.1
  case unlinked | freeing => exact hdead hfit

omit [DecidableEq ι] in
/-- A block that one caller has not in hand is out, or another has it. -/
theorem Kept.with_others (h : s.Kept l) (hq : s.audit.block p ≠ none)
    (hi : (s.position i).block ≠ some p) :
    p ∈ l.map Prod.fst ∨ ∃ j ≠ i, (s.position j).block = some p := by
  refine (h.held p hq).imp_right ?_
  rintro ⟨j, hj⟩
  refine ⟨j, ?_, hj⟩
  rintro rfl
  exact hi hj

/-- One caller moves; the others have what they had. -/
theorem Kept.move (h : s.Kept l) (hlist : a.store.Represents (l'.map Prod.fst))
    (hcount : a.filterdAllocCount = UInt32.ofNat l'.length)
    (hout : ∀ p r, (p, r) ∈ l' → a.Recorded p r)
    (hx : Fits a l' x) (hothers : ∀ j ≠ i, Fits a l' (s.position j))
    (hdistinct : ∀ j ≠ i, ∀ p, x.block = some p → (s.position j).block ≠ some p)
    (hheld : ∀ p, a.block p ≠ none → p ∈ l'.map Prod.fst ∨ x.block = some p
      ∨ ∃ j ≠ i, (s.position j).block = some p)
    (hinit : a.filterdInitDone = false → ∀ p, a.block p = none) :
    Kept ⟨a, k, Function.update s.position i x⟩ l' := by
  refine ⟨hlist, hcount, hout, fun j => ?_, fun j k p hj hk => ?_, fun p hp => ?_, hinit⟩
  · show Fits a l' (Function.update s.position i x j)
    by_cases hj : j = i
    · rw [hj, Function.update_self]
      exact hx
    · rw [Function.update_of_ne hj]
      exact hothers j hj
  · dsimp only at hj hk
    by_cases hji : j = i <;> by_cases hki : k = i
    · rw [hji, hki]
    · rw [hji, Function.update_self] at hj
      rw [Function.update_of_ne hki] at hk
      exact absurd hk (hdistinct k hki p hj)
    · rw [hki, Function.update_self] at hk
      rw [Function.update_of_ne hji] at hj
      exact absurd hj (hdistinct j hji p hk)
    · rw [Function.update_of_ne hji] at hj
      rw [Function.update_of_ne hki] at hk
      exact h.distinct j k p hj hk
  · rcases hheld p hp with hp | hp | ⟨j, hj, hp⟩
    · exact .inl hp
    · refine .inr ⟨i, ?_⟩
      dsimp only
      rwa [Function.update_self]
    · refine .inr ⟨j, ?_⟩
      dsimp only
      rwa [Function.update_of_ne hj]

/-- A caller goes on with what it has in hand. -/
theorem Kept.go (h : s.Kept l) (x : AuditPosition) {n : ℕ}
    (hx : x.block = (s.position i).block) (hfit : Fits s.audit l x)
    (hd : d = false → s.audit.filterdInitDone = false) :
    Kept ⟨{ s.audit with filterdInitDone := d, breaks := n }, k, Function.update s.position i x⟩
      l := by
  refine h.move h.list h.count h.out ?_ (fun j _ => ?_) (fun j hj p hp => ?_) (fun p hp => ?_)
    fun hd' => h.initDone (hd hd')
  · exact hfit.frame (fun _ _ => rfl) (fun _ _ _ => rfl) fun _ _ => id
  · exact (h.fits j).frame (fun _ _ => rfl) (fun _ _ _ => rfl) fun _ _ => id
  · intro hj'
    exact hj (h.distinct j i p hj' (hx ▸ hp))
  · refine (h.held p hp).imp_right ?_
    rintro ⟨j, hj⟩
    by_cases hji : j = i
    · exact .inl (hx.trans (hji ▸ hj))
    · exact .inr ⟨j, hji, hj⟩

theorem Kept.alloc {memory : Option (AllocPtr × FilterdAllocation)} (h : s.Kept l)
    (hi : s.position i = .asking r) (hinit : s.audit.filterdInitDone = true)
    (hm : ∀ m ∈ memory, s.audit.block m.1 = none) :
    ∃ s', s.exec z (.alloc i r memory) = some s' ∧ s'.Kept l := by
  have hblock : (s.position i).block = none := by
    rw [hi]
    rfl
  unfold exec
  rcases allocBlock_cases z s.audit r memory with heq | ⟨p, old, b, rfl, hr, hn, heq⟩ <;>
    simp only [heq]
  · exact ⟨_, rfl, h.go (i := i) .idle hblock.symm trivial id⟩
  · have hfree : s.audit.block p = none := hm (p, old) rfl
    have hne : ∀ q, s.audit.block q ≠ none → q ≠ p := by
      rintro q hq rfl
      exact hq hfree
    have hl : p ∉ l.map Prod.fst := fun hp => h.isSome_of_mem hp hfree
    have hothers : ∀ j q, (s.position j).block = some q → q ≠ p := fun j q hj =>
      hne q ((h.fits j).isSome hj)
    refine ⟨_, rfl, h.move (store_update h.list hl (some b)) h.count (fun q r' hq => ?_)
      ⟨hl, ⟨b, Function.update_self .., hr⟩, (store_next (Function.update_self ..)).trans hn⟩
      (fun j _ => ?_) (fun j _ q hq hj => ?_) (fun q hq => ?_) (fun hd => ?_)⟩
    · have hout := h.out q r' hq
      refine hout.congr ?_
      dsimp only
      rw [Function.update_of_ne (hne q hout.isSome)]
    · refine (h.fits j).frame (fun q hj => ?_) (fun q hj _ => ?_) fun q _ hq => hq
      · dsimp only
        rw [Function.update_of_ne (hothers j q hj)]
      · simp only [store]
        rw [Function.update_of_ne (hothers j q hj)]
    · exact hothers j q hj (Option.some.inj hq).symm
    · by_cases hqp : q = p
      · exact .inr (.inl (hqp ▸ rfl))
      · dsimp only at hq
        rw [Function.update_of_ne hqp] at hq
        exact (h.with_others hq (by simp [hblock])).imp_right .inr
    · exact absurd (hd.symm.trans hinit) Bool.false_ne_true

theorem Kept.link (h : s.Kept l) (hi : s.position i = .linking p r) :
    ∃ s', s.exec z (.link i p r) = some s' ∧ s'.Kept (l ++ [(p, r)])
      ∧ s'.audit.filterdInitDone = s.audit.filterdInitDone := by
  have hfit := h.fits i
  rw [hi] at hfit
  obtain ⟨hl, hr, hn⟩ := hfit
  obtain ⟨b, hb, -⟩ := id hr
  have hmine : (s.position i).block = some p := by
    rw [hi]
    rfl
  have hne := h.apart hmine
  have htail : ∀ t ∈ s.audit.filterdMemoryTail, t ∈ l.map Prod.fst := fun t ht =>
    List.mem_of_getLast? (h.list.tail ▸ ht)
  obtain ⟨a, ha, hstore, hcount, hpayload, hinit⟩ :=
    linkBlock_spec hb ((store_next hb).symm.trans hn) fun t ht =>
      ⟨fun htp => hl (htp ▸ htail t ht), h.isSome_of_mem (htail t ht)⟩
  refine ⟨{ s.move i .linked with audit := a }, by simp only [exec, ha, Option.map_some],
    h.move ?_ ?_ (fun q r' hq => ?_) trivial (fun j hj => ?_) (fun _ _ _ hq => by cases hq)
      (fun q hq => ?_) (fun hd => ?_), hinit⟩
  · rw [List.map_append, hstore]
    exact h.list.pushBack hl
  · rw [hcount, h.count, List.length_append, List.length_singleton, UInt32.ofNat_add]
    rfl
  · refine Recorded.congr (hpayload q) ?_
    rcases List.mem_append.1 hq with hq | hq
    · exact h.out q r' hq
    · obtain ⟨rfl, rfl⟩ := Prod.mk.inj (List.mem_singleton.1 hq)
      exact hr
  · refine (h.fits j).frame (fun q _ => hpayload q) (fun q hq hql => ?_) fun q hq hql => ?_
    · have hqt : s.audit.store.tail ≠ some q := fun ht => hql (htail q ht)
      rw [hstore, Store.pushBack_next, if_neg hqt, if_neg (hne j hj q hq)]
    · rw [List.map_append, List.mem_append] at hql
      exact hql.resolve_right fun hqp => hne j hj q hq (List.mem_singleton.1 hqp)
  · have hq : s.audit.block q ≠ none := fun hn => hq (by simpa [hn] using hpayload q)
    rw [List.map_append, List.mem_append]
    by_cases hqp : q = p
    · exact .inl (.inr (by simp [hqp]))
    · refine (h.with_others hq fun hq => hqp ?_).imp .inl .inr
      exact Option.some.inj (hq.symm.trans hmine)
  · rw [hinit] at hd
    simp [h.initDone hd] at hb

theorem Kept.free (h : s.Kept l) (hi : s.position i = .freeing p) :
    ∃ s', s.exec z (.free i p) = some s' ∧ s'.Kept l := by
  have hdead : s.audit.Dead p := by
    have hfit := h.fits i
    rwa [hi] at hfit
  obtain ⟨b, hb, -⟩ := id hdead
  have hmine : (s.position i).block = some p := by
    rw [hi]
    rfl
  have hne := h.apart hmine
  have hl : p ∉ l.map Prod.fst := h.not_mem_of_held hmine
  have hout : ∀ q r, (q, r) ∈ l → q ≠ p := by
    rintro q r hq rfl
    exact hl (List.mem_map_of_mem hq)
  unfold exec
  simp only [ndisFreeMemory, hb, Option.map_some]
  refine ⟨_, rfl, h.move (store_update h.list hl none) h.count (fun q r' hq => ?_) trivial
    (fun j hj => ?_) (fun _ _ _ hq => by cases hq) (fun q hq => ?_) fun hd => ?_⟩
  · refine (h.out q r' hq).congr ?_
    dsimp only
    rw [Function.update_of_ne (hout q r' hq)]
  · refine (h.fits j).frame (fun q hq => ?_) (fun q hq _ => ?_) fun q _ hq => hq
    · dsimp only
      rw [Function.update_of_ne (hne j hj q hq)]
    · simp only [store]
      rw [Function.update_of_ne (hne j hj q hq)]
  · have hqp : q ≠ p := by
      rintro rfl
      exact hq (Function.update_self ..)
    dsimp only at hq
    rw [Function.update_of_ne hqp] at hq
    refine (h.with_others hq fun hq => hqp ?_).imp_right .inr
    exact Option.some.inj (hq.symm.trans hmine)
  · simp [h.initDone hd] at hb

theorem filter_of_nodup {as bs : List (AllocPtr × AllocRequest)}
    (h : ((as ++ (p, r) :: bs).map Prod.fst).Nodup) :
    (as ++ (p, r) :: bs).filter (·.1 ≠ p) = as ++ bs := by
  rw [List.map_append, List.map_cons, List.nodup_append, List.nodup_cons] at h
  obtain ⟨-, ⟨hbs, -⟩, has⟩ := h
  rw [List.filter_append, List.filter_cons_of_neg (by simp), List.filter_eq_self.2,
    List.filter_eq_self.2]
  · rintro m hm
    simp only [ne_eq, decide_eq_true_eq]
    rintro rfl
    exact hbs (List.mem_map.2 ⟨m, hm, rfl⟩)
  · rintro m hm
    simp only [ne_eq, decide_eq_true_eq]
    exact has m.1 (List.mem_map_of_mem hm) p (by simp)

theorem Kept.unlink (h : s.Kept l) (hi : s.position i = .unlinking p) (hp : p ∈ l.map Prod.fst) :
    ∃ s', s.exec z (.unlink i p) = some s' ∧ s'.Kept (l.filter (·.1 ≠ p))
      ∧ s'.audit.filterdInitDone = s.audit.filterdInitDone := by
  obtain ⟨⟨p, r⟩, hm, rfl⟩ := List.mem_map.1 hp
  obtain ⟨as, bs, rfl⟩ := List.append_of_mem hm
  have hlist : s.audit.store.Represents (as.map Prod.fst ++ p :: bs.map Prod.fst) := by
    simpa using h.list
  obtain ⟨b, hb, hr⟩ := h.out p r hm
  obtain ⟨a, ha, hstore, hcount, hpayload, hdead, hinit, -⟩ := unlinkBlock_spec hlist
    (fun q hq => h.isSome_of_mem (by simpa using hq)) hb hr.1
  have hothers : ∀ j q, (s.position j).block = some q → q ≠ p := by
    rintro j q hj rfl
    exact h.not_mem_of_held hj hp
  have hprev := (hlist.links _ p _ rfl).1
  rw [filter_of_nodup h.list.nodup]
  refine ⟨{ s.move i (.unlinked p) with audit := a },
    by simp only [exec, ha, Option.map_some, if_true],
    h.move ?_ ?_ (fun q r' hq => ?_) ?_ (fun j _ => ?_) (fun j _ q hq hj => ?_) (fun q hq => ?_)
      (fun hd => ?_), hinit⟩
  · rw [hstore, List.map_append]
    exact hlist.unlink
  · rw [hcount, h.count, List.length_append, List.length_cons, ← Nat.add_assoc, UInt32.ofNat_add,
      List.length_append]
    exact UInt32.add_sub_cancel ..
  · have hq' : (q, r') ∈ as ++ (p, r) :: bs := by
      rw [List.mem_append] at hq
      exact List.mem_append.2 (hq.imp_right (List.mem_cons_of_mem _))
    refine (h.out q r' hq').congr (hpayload q ?_)
    rintro rfl
    have hn := hlist.nodup
    rw [List.nodup_middle, List.nodup_cons, ← List.map_append] at hn
    exact hn.1 (List.mem_map.2 ⟨(q, r'), hq, rfl⟩)
  · obtain ⟨b, hb, hsig⟩ := Option.map_eq_some_iff.1 hdead
    exact ⟨b, hb, hsig⟩
  · refine (h.fits j).frame (fun q hj => hpayload q (hothers j q hj)) (fun q _ hql => ?_)
      fun q _ hql => ?_
    · rw [hstore, Store.unlink_next, if_neg]
      intro hq
      have hq' : q ∈ as.map Prod.fst := List.mem_of_getLast? (hprev ▸ hq)
      rw [List.map_append, List.mem_append] at hql
      exact hql (.inl hq')
    · simp only [List.map_append, List.map_cons, List.mem_append, List.mem_cons] at hql ⊢
      exact hql.imp_right .inr
  · exact hothers j q hj (Option.some.inj hq).symm
  · by_cases hqp : q = p
    · exact .inr (.inl (hqp ▸ rfl))
    · have hq : s.audit.block q ≠ none := fun hn => hq (by simpa [hn] using hpayload q hqp)
      refine (h.with_others hq (i := i) (by simp [hi, AuditPosition.block])).imp ?_ .inr
      simp only [List.map_append, List.map_cons, List.mem_append, List.mem_cons]
      exact fun hq => hq.imp_right fun hq => hq.resolve_left hqp
  · rw [hinit] at hd
    simp [h.initDone hd] at hb

omit [DecidableEq ι] in
/-- A block that is not out, if it is still there, has been freed by somebody. -/
theorem Kept.dead (h : s.Kept l) (hlock : s.Locked) (hi : s.position i = .unlinking p)
    (hp : ∀ j r, s.position j ≠ .allocated p r) (hl : p ∉ l.map Prod.fst)
    (hb : s.audit.block p ≠ none) : s.audit.Dead p := by
  obtain ⟨j, hj⟩ := (h.held p hb).resolve_left hl
  have hfit := h.fits j
  rcases hx : s.position j <;> rw [hx] at hfit hj <;> cases hj
  case allocated r => exact absurd hx (hp j r)
  case linking r =>
    have hji : j = i := hlock.alone (by rw [hx]; trivial) (by rw [hi]; trivial)
    rw [hji, hi] at hx
    cases hx
  case unlinked | freeing => exact hfit

theorem exec_unlink_dead (h : s.audit.Dead p) :
    s.exec z (.unlink i p) = some (s.move i .rejecting) := by
  obtain ⟨b, hb, hsig⟩ := h
  have hne : b.signature ≠ filterdMemorySignature := by
    rw [hsig]
    decide
  simp only [exec, unlinkBlock, hb, Option.bind_eq_bind, Option.bind_some, if_pos hne,
    Option.pure_def, Option.map_some]
  rfl

theorem exec_unlink_none (h : s.audit.block p = none) : s.exec z (.unlink i p) = none := by
  simp [exec, unlinkBlock, h]

/-- The blocks of `l` are out, and the lock does what it is there for. -/
structure Inv (s : Auditing ι) (l : List (AllocPtr × AllocRequest)) : Prop where
  kept : s.Kept l
  locked : s.Locked

/-- A step that neither links nor unlinks a block leaves the list. -/
theorem Kept.exec (h : s.Kept l) (hlock : s.Locked) (he : s.Proper e)
    (hlink : ∀ i p r, e ≠ .link i p r) (hunlink : ∀ i p, e ≠ .unlink i p) :
    ∃ s', s.exec z e = some s' ∧ s'.Kept l := by
  cases e with
  | enter i r =>
    refine ⟨_, rfl, h.go _ ?_ ?_ id⟩
    · rw [he.1]
      split_ifs <;> rfl
    · split_ifs <;> trivial
  | create i r =>
    have hi : s.position i = .creating r := he
    exact ⟨_, rfl, h.go (.marking r) (by rw [hi]; rfl) trivial id⟩
  | mark i r =>
    have hi : s.position i = .marking r := he
    refine ⟨_, rfl, h.go (.asking r) (by rw [hi]; rfl) trivial ?_⟩
    rintro ⟨⟩
  | alloc i r memory =>
    have hagrees := hlock.agrees i
    rw [he.1] at hagrees
    exact h.alloc he.1 hagrees.1 he.2
  | acquire i p r =>
    have hfit := h.fits i
    rw [he.1] at hfit
    exact ⟨_, rfl, h.go (.linking p r) (by rw [he.1]; rfl) hfit id⟩
  | link i p r => exact absurd rfl (hlink i p r)
  | acquireToFree i p =>
    exact ⟨_, rfl, h.go (.unlinking p) (by rw [he.1]; rfl) trivial id⟩
  | unlink i p => exact absurd rfl (hunlink i p)
  | release i =>
    have hfit := h.fits i
    refine ⟨_, rfl, h.go _ ?_ ?_ id⟩
    · rcases he with hi | ⟨p, hi⟩ | hi <;> rw [hi] <;> rfl
    · rcases he with hi | ⟨p, hi⟩ | hi <;> rw [hi] at hfit ⊢ <;> exact hfit
  | free i p => exact h.free he
  | breakPoint i =>
    have hi : s.position i = .breaking := he
    exact ⟨_, rfl, h.go .idle (by rw [hi]; rfl) trivial id⟩

/-- A caller's step has a result, unless it frees what is not there, and keeps the invariant. -/
theorem Inv.exec (h : s.Inv l) (he : s.Proper e)
    (hthere : ∀ i p, e = .unlink i p → s.audit.block p ≠ none) :
    ∃ s', s.exec z e = some s' ∧ s'.Inv (AuditStep.outstanding l e) := by
  obtain ⟨hkept, hlock⟩ := h
  by_cases hlink : ∃ i p r, e = .link i p r
  · obtain ⟨i, p, r, rfl⟩ := hlink
    obtain ⟨s', hs', hkept', hd⟩ := hkept.link (z := z) he
    exact ⟨s', hs', hkept', hlock.step he hs' (fun _ _ _ _ => hd) nofun⟩
  by_cases hunlink : ∃ i p, e = .unlink i p
  · obtain ⟨i, p, rfl⟩ := hunlink
    by_cases hp : p ∈ l.map Prod.fst
    · obtain ⟨s', hs', hkept', hd⟩ := hkept.unlink (z := z) he.1 hp
      exact ⟨s', hs', hkept', hlock.step he hs' nofun fun _ _ _ => hd⟩
    · have hs' := exec_unlink_dead (z := z) (i := i)
        (hkept.dead hlock he.1 he.2 hp (hthere i p rfl))
      have hfilter : l.filter (·.1 ≠ p) = l := List.filter_eq_self.2 fun m hm => by
        simp only [ne_eq, decide_eq_true_eq]
        rintro rfl
        exact hp (List.mem_map_of_mem hm)
      refine ⟨_, hs', ?_, hlock.step he hs' nofun fun _ _ _ => rfl⟩
      rw [AuditStep.outstanding, hfilter]
      exact hkept.go .rejecting (by rw [he.1]; rfl) trivial id
  · have hout : AuditStep.outstanding l e = l := by
      cases e with
      | link i p r => exact absurd ⟨i, p, r, rfl⟩ hlink
      | unlink i p => exact absurd ⟨i, p, rfl⟩ hunlink
      | _ => rfl
    obtain ⟨s', hs', hkept'⟩ := hkept.exec (z := z) hlock he (fun i p r h => hlink ⟨i, p, r, h⟩)
      fun i p h => hunlink ⟨i, p, h⟩
    rw [hout]
    exact ⟨s', hs', hkept', hlock.step he hs' (fun i p r h => absurd ⟨i, p, r, h⟩ hlink)
      fun i p h => absurd ⟨i, p, h⟩ hunlink⟩

theorem Inv.step (h : s.Inv l) (hs : Step z s e s') : s'.Inv (AuditStep.outstanding l e) := by
  obtain ⟨s'', hs'', hinv⟩ := h.exec (z := z) hs.1 fun i p he hn => by
    have := hs.2
    rw [he, exec_unlink_none hn] at this
    cases this
  obtain rfl : s'' = s' := Option.some.inj (hs''.symm.trans hs.2)
  exact hinv

omit [DecidableEq ι] in
theorem Kept.init : (init : Auditing ι).Kept [] := by
  refine ⟨⟨List.nodup_nil, rfl, rfl, fun as x bs hxs => ?_⟩, rfl, fun p r hp => ?_,
    fun i => trivial, fun i j p hi => ?_, fun p hp => absurd rfl hp, fun _ _ => rfl⟩
  · exact absurd (show [] = as ++ x :: bs from hxs) (by simp)
  · cases hp
  · cases hi

theorem run_inv {tr : List (AuditStep ι)} (h : Sys.Run (Step z) init tr s) :
    s.Inv (outstanding tr) := by
  refine h.induct (I := fun tr s => Inv s (outstanding tr)) ⟨Kept.init, Locked.init⟩ ?_
  intro tr s₁ e s₂ _ ih hs
  rw [outstanding, List.foldl_append]
  exact ih.step hs

/-- Walking from either end meets the blocks that are out, and each says who asked for it; any other
block is in some caller's hands. One caller at most is inside the lock, and the lock is there when a
block is to be linked. Freeing a block that is gone is the only fault; freeing one that is not out
but still there changes nothing, and breaks into the debugger. -/
theorem audits {tr : List (AuditStep ι)} (h : Sys.Run (Step z) init tr s) :
    let ps := (outstanding tr).map Prod.fst
    ps.Nodup
      ∧ (∀ n ≥ ps.length, Store.walk s.audit.store.next n s.audit.filterdMemoryHead = ps
        ∧ Store.walk s.audit.store.prev n s.audit.filterdMemoryTail = ps.reverse)
      ∧ s.audit.filterdAllocCount = UInt32.ofNat ps.length
      ∧ (∀ p r, (p, r) ∈ outstanding tr → s.audit.Recorded p r)
      ∧ (∀ p, s.audit.block p ≠ none → p ∈ ps ∨ ∃ i, (s.position i).block = some p)
      ∧ (∀ i j, (s.position i).Inside → (s.position j).Inside → i = j)
      ∧ (∀ i p r, s.position i = .allocated p r → s.filterdMemoryLock ≠ .uncreated)
      ∧ (∀ e, s.Proper e →
        (s.exec z e = none ↔ ∃ i p, e = .unlink i p ∧ s.audit.block p = none))
      ∧ ∀ i p, s.Proper (.unlink i p) → p ∉ ps → s.audit.block p ≠ none →
        s.exec z (.unlink i p) = some (s.move i .rejecting)
          ∧ [.release i, .breakPoint i].foldlM (exec z) (s.move i .rejecting)
            = some { s.move i .idle with
              audit := s.audit.dbgBreakPoint
              filterdMemoryLock := .free } := by
  have hinv := run_inv h
  obtain ⟨hkept, hlock⟩ := id hinv
  refine ⟨hkept.list.nodup, fun n hn => hkept.list.walks hn, ?_, hkept.out, hkept.held,
    fun i j hi hj => hlock.alone hi hj, fun i p r hi => hlock.done ?_,
    fun e he => ⟨fun hnone => ?_, ?_⟩, fun i p he hp hb => ⟨?_, ?_⟩⟩
  · rw [hkept.count, List.length_map]
  · have hblock : s.audit.block p ≠ none := (hkept.fits i).isSome (by rw [hi]; rfl)
    by_contra hd
    exact hblock (hkept.initDone (Bool.eq_false_iff.2 hd) p)
  · by_contra hthere
    obtain ⟨s', hs', -⟩ := hinv.exec (z := z) he fun i p hip hn => hthere ⟨i, p, hip, hn⟩
    rw [hnone] at hs'
    cases hs'
  · rintro ⟨i, p, rfl, hn⟩
    exact exec_unlink_none hn
  · exact exec_unlink_dead (hkept.dead hlock he.1 he.2 hp hb)
  · simp only [List.foldlM_cons, List.foldlM_nil, exec, move, Function.update_self,
      AuditPosition.outside, Option.bind_eq_bind, Option.bind_some, Function.update_idem]
    rfl

/-- The state a step leads to. -/
def after (z : UInt32) (s : Auditing ι) (e : AuditStep ι) : Auditing ι := (s.exec z e).getD s

theorem Step.after (he : s.Proper e) (hs : (s.exec z e).isSome) : Step z s e (s.after z e) := by
  obtain ⟨s', hs'⟩ := Option.isSome_iff_exists.1 hs
  refine ⟨he, ?_⟩
  rw [Auditing.after, hs', Option.getD_some]

def asked (lineNumber : UInt32) : AllocRequest := ⟨1, 4, 0x46545446, lineNumber⟩

/-- What NDIS gives. -/
def given (p : AllocPtr) : Option (AllocPtr × FilterdAllocation) :=
  some (p, ⟨0, some 9, some 9, 0, 0, 0, 0, []⟩)

/-- Two callers are handed a block each, the one who asked last first. That block is unlinked, and
not freed yet. -/
def churn : List (AuditStep Bool) :=
  [.enter false (asked 10), .create false (asked 10), .mark false (asked 10),
    .enter true (asked 20), .alloc false (asked 10) (given 64), .alloc true (asked 20) (given 128),
    .acquire true 128 (asked 20), .link true 128 (asked 20), .release true,
    .acquire false 64 (asked 10), .link false 64 (asked 10), .release false,
    .acquireToFree true 128, .unlink true 128, .release true]

def churned : Auditing Bool := churn.foldl (after 56) init

theorem churn_run : Sys.Run (Step 56) init churn churned := by
  have hallowed : Sys.Allowed (fun s e => s.Proper e ∧ (exec 56 s e).isSome) (after 56)
      (init : Auditing Bool) churn := by
    refine ⟨⟨⟨rfl, ?_⟩, rfl⟩, ⟨rfl, rfl⟩, ⟨rfl, rfl⟩, ⟨⟨rfl, ?_⟩, rfl⟩, ⟨⟨rfl, ?_⟩, rfl⟩,
      ⟨⟨rfl, ?_⟩, rfl⟩, ⟨⟨rfl, rfl⟩, rfl⟩, ⟨rfl, rfl⟩, ⟨.inl rfl, rfl⟩, ⟨⟨rfl, rfl⟩, rfl⟩,
      ⟨rfl, rfl⟩, ⟨.inl rfl, rfl⟩, ⟨⟨rfl, rfl⟩, rfl⟩, ⟨⟨rfl, ?_⟩, rfl⟩,
      ⟨.inr (.inl ⟨_, rfl⟩), rfl⟩, trivial⟩
    · rintro (_ | _) <;> exact id
    · rintro (_ | _) <;> exact id
    · rintro m ⟨⟩
      rfl
    · rintro m ⟨⟩
      rfl
    · rintro (_ | _) r hr <;> cases hr
  refine hallowed.run.mono ?_
  rintro s e _ ⟨⟨he, hs⟩, rfl⟩
  exact Step.after he hs

/-- The other caller is about to free the block as well. -/
def pressed : Auditing Bool := churned.after 56 (.acquireToFree false 128)

theorem audits_pressed :
    Store.walk pressed.audit.store.next 3 pressed.audit.filterdMemoryHead = [64]
      ∧ pressed.audit.filterdAllocCount = 1 ∧ ¬ (pressed.position true).Inside
      ∧ pressed.exec 56 (.unlink false 128) = some (pressed.move false .rejecting) := by
  have hrun : Sys.Run (Step 56) init _ pressed :=
    churn_run.snoc (Step.after (e := .acquireToFree false 128) ⟨rfl, rfl⟩ rfl)
  obtain ⟨-, hwalk, hcount, -, -, halone, -, -, hdead⟩ := audits hrun
  refine ⟨(hwalk 3 ?_).1, hcount, fun hi => ?_, (hdead false 128 ⟨rfl, ?_⟩ ?_ ?_).1⟩
  · decide
  · exact absurd (halone true false hi trivial) (by decide)
  · rintro (_ | _) r hr <;> cases hr
  · decide
  · exact Option.some_ne_none _

/-- Two callers that enter before the lock is there: it is created anew while one has it. -/
def bothFirst : List (AuditStep Bool) :=
  [.enter false (asked 10), .enter true (asked 20), .create false (asked 10),
    .mark false (asked 10), .alloc false (asked 10) (given 64), .acquire false 64 (asked 10),
    .create true (asked 20), .mark true (asked 20), .alloc true (asked 20) (given 128),
    .acquire true 128 (asked 20)]

/-- So the lock has to be created by one caller alone. -/
theorem inside_of_bothFirst :
    ∃ s, bothFirst.foldlM (exec 56) init = some s ∧ (s.position false).Inside
      ∧ (s.position true).Inside :=
  ⟨_, rfl, trivial, trivial⟩

/-! ## The shutdown -/

omit [DecidableEq ι] in
/-- Unless it is held, the lock is there when there is a block to free. -/
theorem Locked.free_of_initDone (h : s.Locked) (hheld : ∀ i, s.filterdMemoryLock ≠ .held i)
    (hd : s.audit.filterdInitDone = true) : s.filterdMemoryLock = .free := by
  have hk := h.done hd
  cases hlock : s.filterdMemoryLock with
  | uncreated => exact absurd hlock hk
  | free => rfl
  | held i => exact absurd hlock (hheld i)

omit [DecidableEq ι] in
/-- The loop frees every block that is linked, one a turn. -/
theorem shutdownLoop_spec (qs : List AllocPtr) : ∀ {s : Auditing ι} {fuel : ℕ},
    qs.length ≤ fuel → s.filterdMemoryLock = .free → s.audit.store.Represents qs →
    (∀ q ∈ qs, ∃ b, s.audit.block q = some b ∧ b.signature = filterdMemorySignature) →
    ∃ a, shutdownLoop fuel s = some { s with audit := a } ∧ a.filterdMemoryHead = none
      ∧ a.filterdMemoryTail = none
      ∧ a.filterdAllocCount = s.audit.filterdAllocCount - UInt32.ofNat qs.length
      ∧ a.breaks = s.audit.breaks
      ∧ ∀ q, a.block q = if q ∈ qs then none else s.audit.block q := by
  induction qs with
  | nil =>
    intro s fuel _ _ h _
    have hhead : s.audit.filterdMemoryHead = none := h.head
    have htail : s.audit.filterdMemoryTail = none := h.tail
    unfold shutdownLoop
    rw [hhead]
    exact ⟨s.audit, rfl, hhead, htail, (UInt32.sub_zero _).symm, rfl,
      fun q => (if_neg List.not_mem_nil).symm⟩
  | cons p qs ih =>
    intro s fuel hf hlock h hsig
    obtain ⟨fuel, rfl⟩ := Nat.exists_eq_add_one_of_ne_zero (Nat.ne_of_gt (Nat.zero_lt_of_lt hf))
    have hhead : s.audit.filterdMemoryHead = some p := h.head
    obtain ⟨b, hb, hbsig⟩ := hsig p (by simp)
    obtain ⟨a₁, h₁, hlist, hcount, -, hbreaks, hfreed, hpayload, hothers⟩ :=
      freeBlock_spec (show s.audit.store.Represents ([] ++ p :: qs) from h) (fun q hq => by
        obtain ⟨b, hb, -⟩ := hsig q hq
        simp [hb]) hb hbsig
    have hp : p ∉ qs := (List.nodup_cons.1 h.nodup).1
    have hfree : s.filterAuditFreeMem p = some { s with audit := a₁ } := by
      unfold filterAuditFreeMem
      simp only [hlock, h₁, Option.map_some]
    obtain ⟨a₂, h₂, hhead₂, htail₂, hcount₂, hbreaks₂, hblock₂⟩ :=
      ih (s := { s with audit := a₁ }) (Nat.le_of_succ_le_succ hf) hlock hlist fun q hq => by
        obtain ⟨b, hb, hbsig⟩ := hsig q (by simp [hq])
        obtain ⟨b', hb', hpay⟩ := exists_of_payload (hpayload q fun hqp => hp (hqp ▸ hq)) hb
        exact ⟨b', hb', (congrArg FilterdAllocation.signature hpay).trans hbsig⟩
    unfold shutdownLoop
    rw [hhead]
    simp only [hfree, Option.bind_some]
    refine ⟨a₂, h₂, hhead₂, htail₂, ?_, hbreaks₂.trans hbreaks, fun q => ?_⟩
    · have hsub (c n : UInt32) : c - 1 - n = c - (n + 1) := by grind
      rw [hcount₂, hcount, List.length_cons, UInt32.ofNat_add, hsub]
      rfl
    · rw [hblock₂ q]
      by_cases hq : q ∈ qs
      · rw [if_pos hq, if_pos (List.mem_cons_of_mem p hq)]
      · rw [if_neg hq]
        by_cases hqp : q = p
        · rw [hqp, hfreed, if_pos (by simp)]
        · have hq' : q ∉ p :: qs := by simp [hq, hqp]
          rw [if_neg hq', hothers q hq']

/-- A shutdown that nobody interferes with, while nobody has the lock, breaks into the debugger once
and then frees the blocks that are out and no other, unless their count has come round to zero: then
it does neither. -/
theorem shutdown_frees {tr : List (AuditStep ι)} (h : Sys.Run (Step z) init tr s)
    (hheld : ∀ i, s.filterdMemoryLock ≠ .held i) {fuel : ℕ}
    (hf : (outstanding tr).length ≤ fuel) :
    ∃ a, s.filterAuditShutdown fuel = some { s with audit := a } ∧ a.filterdInitDone = false
      ∧ ((outstanding tr).length % 2 ^ 32 ≠ 0 →
        a.filterdMemoryHead = none ∧ a.filterdMemoryTail = none ∧ a.filterdAllocCount = 0
          ∧ a.breaks = s.audit.breaks + 1
          ∧ ∀ p, a.block p
            = if p ∈ (outstanding tr).map Prod.fst then none else s.audit.block p)
      ∧ ((outstanding tr).length % 2 ^ 32 = 0 → a = { s.audit with filterdInitDone := false }) := by
  obtain ⟨hkept, hlock⟩ := run_inv h
  have hcount : s.audit.filterdAllocCount ≠ 0 ↔ (outstanding tr).length % 2 ^ 32 ≠ 0 := by
    rw [hkept.count, ne_eq, ← UInt32.toNat_inj, UInt32.toNat_ofNat']
    rfl
  unfold filterAuditShutdown
  by_cases hinit : s.audit.filterdInitDone
  · rw [if_pos hinit]
    by_cases hc : s.audit.filterdAllocCount ≠ 0
    · obtain ⟨a, ha, hhead, htail, hcount', hbreaks, hblock⟩ := shutdownLoop_spec _
        (s := { s with audit := s.audit.dbgBreakPoint }) (by simpa using hf)
        (hlock.free_of_initDone hheld hinit) hkept.list fun q hq => by
          obtain ⟨⟨q, r⟩, hm, rfl⟩ := List.mem_map.1 hq
          obtain ⟨b, hb, hr⟩ := hkept.out q r hm
          exact ⟨b, hb, hr.1⟩
      rw [if_pos hc, ha, Option.map_some]
      refine ⟨_, rfl, rfl, fun _ => ⟨hhead, htail, ?_, hbreaks, hblock⟩, fun h0 => ?_⟩
      · show a.filterdAllocCount = 0
        rw [hcount', List.length_map]
        exact (congrArg (· - UInt32.ofNat _) hkept.count).trans (UInt32.sub_self ..)
      · exact absurd h0 (hcount.1 hc)
    · rw [if_neg hc]
      exact ⟨_, rfl, rfl, fun h0 => absurd (hcount.2 h0) hc, fun _ => rfl⟩
  · rw [if_neg hinit]
    have hnone := hkept.initDone (Bool.eq_false_iff.2 hinit)
    have hempty : outstanding tr = [] := by
      rcases hl : outstanding tr with _ | ⟨⟨p, r⟩, l⟩
      · rfl
      · exact absurd (hnone p) (hkept.isSome_of_mem (by simp [hl]))
    refine ⟨s.audit, rfl, Bool.eq_false_iff.2 hinit, fun h0 => ?_, fun _ => ?_⟩
    · simp [hempty] at h0
    · rw [← Bool.eq_false_iff.2 hinit]

theorem shutdown_frees_churned :
    ∃ a, churned.filterAuditShutdown 1 = some { churned with audit := a }
      ∧ a.filterdMemoryHead = none ∧ a.breaks = 1 ∧ a.block 64 = none
      ∧ a.block 128 = churned.audit.block 128 := by
  have hlock : churned.filterdMemoryLock = .free := rfl
  obtain ⟨a, ha, -, hfrees, -⟩ := shutdown_frees churn_run (by simp [hlock])
    (show _ ≤ 1 by decide)
  obtain ⟨hhead, -, -, hbreaks, hblock⟩ := hfrees (by decide)
  exact ⟨a, ha, hhead, hbreaks, hblock 64, hblock 128⟩

end Auditing

end LcxlNetLoader
