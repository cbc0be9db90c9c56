import LcxlNetLoader.Proofs.Oid

/-!
# One OID request at a time

Where a request is handed in only when none is with the filter, the clone that is remembered as
pending is that of the request, from before it goes down to when its completion has the lock. So
what `FilterOidRequestComplete` asserts is so, and a cancellation that takes the lock while the
request is below finds it.
-/

namespace LcxlNetLoader

namespace OidFilter

variable {ι κ : Type*} {s : OidFilter ι κ} {p : PassThrough ι} {i : ι} {k : κ} {a : OidStep ι κ}

/-- A request is alone, and remembered as pending while it may be. -/
structure Alone (s : OidFilter ι κ) : Prop where
  one : ∀ i j, s.position i ≠ .absent → s.position j ≠ .absent → i = j
  pending : ∀ i c, (s.position i).pendable = some c → s.pendingOidRequest = some c

theorem ne_absent_of_pendable {P : OidPosition} {c : ℕ} (h : P.pendable = some c) :
    P ≠ .absent := by
  rintro rfl
  cases h

variable [DecidableEq ι] [DecidableEq κ]

omit [DecidableEq κ] in
theorem pendable_update {f : ι → OidPosition} {j : ι} {P : OidPosition}
    (h : P.pendable = (f j).pendable) :
    (Function.update f j P i).pendable = (f i).pendable := by
  rcases eq_or_ne i j with rfl | hne
  · rw [Function.update_self, h]
  · rw [Function.update_of_ne hne]

/-- A request begins to be one that may be pending when it is published, and stops when pending is
cleared. -/
theorem pendable_exec (ha : s.Enabled a) (hpublishes : a ≠ .publishes i) (hclears : a ≠ .clears i) :
    ((s.exec a).position i).pendable = (s.position i).pendable := by
  cases a with
  | arrives j r request =>
    simp only [exec, ha.1]
    exact pendable_update (by simp [setOriginal, ha.1, OidPosition.pendable])
  | cloneFails j status | clones j c requestId | prepares j | sends j | completesBelow j status data
  | enters j | locks j | unlocks j | copies j | nulls j | frees j | completes j =>
    simp only [exec]
    repeat' split
    all_goals first
      | rfl
      | exact pendable_update (by simp [setOriginal, setClone, answer, OidPosition.pendable, *])
  | publishes j =>
    obtain ⟨c, hpos⟩ := ha
    have hne : i ≠ j := fun heq => hpublishes (heq ▸ rfl)
    simp only [exec, hpos, move, Function.update_of_ne hne]
  | clears j =>
    obtain ⟨c, status, r, hpos⟩ := ha
    have hne : i ≠ j := fun heq => hclears (heq ▸ rfl)
    simp only [exec, hpos, move, Function.update_of_ne hne]
  | cancels | cancelLocks | looks | reads | compares | cancelUnlocks | forwards =>
    simp only [exec]
    repeat' split
    all_goals rfl

omit [DecidableEq κ] in
theorem update_absent {f : ι → OidPosition} {j : ι} {P : OidPosition} (hi : f i = .absent)
    (hj : f j ≠ .absent) : Function.update f j P i = .absent := by
  have hne : i ≠ j := by
    rintro rfl
    exact hj hi
  rw [Function.update_of_ne hne, hi]

/-- Where there is no request, there is none unless it arrives. -/
theorem absent_exec (ha : s.Enabled a) (hi : s.position i = .absent)
    (harrives : ∀ r request, a ≠ .arrives i r request) : (s.exec a).position i = .absent := by
  cases a with
  | arrives j r request =>
    have hne : i ≠ j := fun heq => harrives r request (heq ▸ rfl)
    simp only [exec, ha.1, move, Function.update_of_ne hne]
    exact hi
  | cloneFails | clones | prepares | publishes | sends | completesBelow | enters | locks | clears
  | unlocks | copies | nulls | frees | completes =>
    simp only [exec]
    repeat' split
    all_goals first
      | exact hi
      | exact update_absent hi (by simp [setOriginal, setClone, answer, *])
  | cancels | cancelLocks | looks | reads | compares | cancelUnlocks | forwards =>
    simp only [exec]
    repeat' split
    all_goals exact hi

/-- What is pending changes only where a request is published and where it is cleared. -/
theorem pending_exec (hpublishes : ∀ j, a ≠ .publishes j) (hclears : ∀ j, a ≠ .clears j) :
    (s.exec a).pendingOidRequest = s.pendingOidRequest := by
  cases a with
  | publishes j => exact absurd rfl (hpublishes j)
  | clears j => exact absurd rfl (hclears j)
  | _ =>
    simp only [exec]
    repeat' split
    all_goals rfl

theorem Alone.step (h : s.Alone) (ha : s.Enabled a) (hone : s.OneAtATime a) : (s.exec a).Alone := by
  have hbefore : ∀ i, (s.exec a).position i ≠ .absent → s.position i ≠ .absent ∨
      ∃ r request, a = .arrives i r request := by
    intro i hi
    by_contra hnone
    push Not at hnone
    exact hi (absent_exec ha hnone.1 hnone.2)
  refine ⟨fun i j hi hj => ?_, fun i c hc => ?_⟩
  · rcases hbefore i hi with hib | ⟨r, request, rfl⟩
    · rcases hbefore j hj with hjb | ⟨r, request, rfl⟩
      · exact h.one i j hib hjb
      · exact absurd (hone i) hib
    · rcases hbefore j hj with hjb | ⟨r', request', heq⟩
      · exact absurd (hone j) hjb
      · injection heq
  · by_cases hpublishes : ∃ j, a = .publishes j
    · obtain ⟨j, rfl⟩ := hpublishes
      obtain ⟨c', hpos⟩ := ha
      simp only [exec, hpos, move] at hc ⊢
      rcases eq_or_ne i j with rfl | hne
      · rwa [Function.update_self] at hc
      · rw [Function.update_of_ne hne] at hc
        exact absurd (h.one i j (ne_absent_of_pendable hc) (by simp [hpos])) hne
    by_cases hclears : ∃ j, a = .clears j
    · obtain ⟨j, rfl⟩ := hclears
      obtain ⟨c', status, r, hpos⟩ := ha
      simp only [exec, hpos, move] at hc
      rcases eq_or_ne i j with rfl | hne
      · rw [Function.update_self] at hc
        cases hc
      · rw [Function.update_of_ne hne] at hc
        exact absurd (h.one i j (ne_absent_of_pendable hc) (by simp [hpos])) hne
    push Not at hpublishes hclears
    rw [pendable_exec ha (hpublishes i) (hclears i)] at hc
    rw [pending_exec hpublishes hclears]
    exact h.pending i c hc

/-- The steps that can be taken where a request is handed in only when there is none. -/
def Serial (s : OidFilter ι κ) (a : OidStep ι κ) : Prop := s.Enabled a ∧ s.OneAtATime a

theorem serial_inv {tr : List (OidStep ι κ)} (h : Sys.Run (Sys.Guarded Serial exec) init tr s) :
    (∃ p, s.Inv p) ∧ s.Alone := by
  have hinit : (init : OidFilter ι κ).Alone :=
    ⟨fun i _ hi => absurd rfl hi, fun _ _ hc => by cases hc⟩
  refine h.preserves (I := fun s => (∃ p, s.Inv p) ∧ s.Alone) ?_ ⟨⟨_, inv_init⟩, hinit⟩
  rintro s a s' ⟨⟨p, hinv⟩, halone⟩ ⟨⟨ha, hone⟩, rfl⟩
  exact ⟨⟨_, hinv.step ha⟩, halone.step ha hone⟩

/-- Where a request is handed in only when there is none, what is pending is the clone of the
request that may be, and of no other: so the clone that `FilterOidRequestComplete` clears is the one
it asserts to be pending. -/
theorem pending_iff {tr : List (OidStep ι κ)}
    (h : Sys.Run (Sys.Guarded Serial exec) init tr s) :
    (∀ c, s.pendingOidRequest = some c ↔ ∃ i, (s.position i).pendable = some c) ∧
      ∀ i c status r, s.position i = .clearing c status r → s.pendingOidRequest = some c := by
  obtain ⟨⟨p, hinv⟩, halone⟩ := serial_inv h
  refine ⟨fun c => ⟨hinv.pending c, ?_⟩, fun i c status r hpos => ?_⟩
  · rintro ⟨i, hi⟩
    exact halone.pending i c hi
  · exact halone.pending i c (by rw [hpos]; rfl)

theorem goesDown_run :
    Sys.Run (Sys.Guarded Serial exec) init goesDown (goesDown.foldl exec init) := by
  have hallowed : Sys.Allowed Serial exec init goesDown := by
    refine ⟨⟨⟨rfl, rfl⟩, fun _ => rfl⟩, ⟨⟨⟨_, rfl⟩, rfl⟩, trivial⟩, ⟨⟨_, _, rfl⟩, trivial⟩,
      ⟨⟨_, rfl⟩, trivial⟩, ⟨⟨_, rfl⟩, trivial⟩, ⟨rfl, trivial⟩, ⟨⟨⟨_, rfl⟩, rfl⟩, trivial⟩, trivial⟩
  exact hallowed.run

theorem pending_iff_goesDown :
    (∀ c, (goesDown.foldl exec init).pendingOidRequest = some c ↔
        ∃ i, ((goesDown.foldl exec init).position i).pendable = some c) ∧
      ∀ i c status r, (goesDown.foldl exec init).position i = .clearing c status r →
        (goesDown.foldl exec init).pendingOidRequest = some c :=
  pending_iff goesDown_run

/-! ## Cancellations -/

/-- The request with the number has gone down, and its completion has not yet let go of the lock. -/
def IsPending (s : OidFilter ι κ) (requestId : ℕ) : Prop :=
  ∃ i c clone r request, (s.position i).pendable = some c ∧ s.clone c = some ⟨clone, some r⟩ ∧
    s.original r = some request ∧ request.requestId = requestId

/-- A cancellation that has the lock, and has found the request that is pending as far as it has
looked. -/
structure Finding (s : OidFilter ι κ) (p : PassThrough ι) (k : κ) (requestId : ℕ) (i : ι) (c : ℕ) :
    Prop where
  pendable : (s.position i).pendable = some c
  requestId_eq : (p.request i).requestId = requestId
  cancel : s.cancel k = .looking requestId ∨ s.cancel k = .reading requestId c ∨
    s.cancel k = .comparing requestId (p.original i) ∨ s.cancel k = .unlocking requestId true

/-- It finds the request, or hands the cancellation on. -/
def HandsOn (s : OidFilter ι κ) (p : PassThrough ι) (k : κ) (requestId : ℕ) : Prop :=
  (∃ i c, s.Finding p k requestId i c) ∨ s.cancel k = .forwarding requestId

omit [DecidableEq κ] in
theorem exec_request (p : PassThrough ι) (h : ∀ r request, a ≠ .arrives i r request) :
    (p.exec a).original i = p.original i ∧ (p.exec a).request i = p.request i := by
  cases a with
  | arrives j r request =>
    have hne : i ≠ j := fun heq => h r request (heq ▸ rfl)
    exact ⟨Function.update_of_ne hne .., Function.update_of_ne hne ..⟩
  | _ => exact ⟨rfl, rfl⟩

/-- The request stays where a cancellation that has the lock finds it. -/
theorem pendable_stays {c : ℕ} (h : s.Inv p) (ha : s.Enabled a)
    (hi : (s.position i).pendable = some c) (hlock : s.lock = some (.inr k)) :
    ((s.exec a).position i).pendable = some c ∧ (p.exec a).original i = p.original i ∧
      (p.exec a).request i = p.request i := by
  refine ⟨?_, exec_request p ?_⟩
  · rw [pendable_exec ha ?_ ?_, hi]
    · rintro rfl
      obtain ⟨c', hpos⟩ := ha
      rw [hpos] at hi
      cases hi
    · rintro rfl
      obtain ⟨c', status, r, hpos⟩ := ha
      have hmine : s.lock = some (.inl i) := h.inside i (by rw [hpos]; rfl)
      rw [hlock] at hmine
      cases hmine
  · rintro r request rfl
    exact ne_absent_of_pendable hi ha.1

theorem Finding.step {requestId c : ℕ} (hf : s.Finding p k requestId i c) (h : s.Inv p)
    (halone : s.Alone) (ha : s.Enabled a) : (s.exec a).HandsOn (p.exec a) k requestId := by
  have hlock : s.lock = some (.inr k) := by
    refine h.cancelInside k ?_
    rcases hf.cancel with hk | hk | hk | hk <;> rw [hk] <;> rfl
  obtain ⟨hpendable, horiginal, hrequest⟩ := pendable_stays h ha hf.pendable hlock
  obtain ⟨hkept, clone, hclone⟩ := h.pendable_kept hf.pendable
  have hgo : ∀ {C}, (s.exec a).cancel k = C → (C = .looking requestId ∨ C = .reading requestId c ∨
      C = .comparing requestId (p.original i) ∨ C = .unlocking requestId true) →
      (s.exec a).HandsOn (p.exec a) k requestId := fun hC hcancel =>
    .inl ⟨i, c, hpendable, hrequest ▸ hf.requestId_eq, by rw [hC, horiginal]; exact hcancel⟩
  by_cases hmine : a.canceller = some k
  · rcases canceller_eq_some hmine with ⟨_, rfl⟩ | rfl | rfl | rfl | rfl | rfl | rfl
    · have hk : s.cancel k = .absent := ha
      rcases hf.cancel with hk' | hk' | hk' | hk' <;> rw [hk] at hk' <;> cases hk'
    · obtain ⟨⟨_, hk⟩, -⟩ := ha
      rcases hf.cancel with hk' | hk' | hk' | hk' <;> rw [hk] at hk' <;> cases hk'
    · obtain ⟨_, hk⟩ := ha
      rcases hf.cancel with hk' | hk' | hk' | hk' <;> rw [hk] at hk' <;> cases hk'
      refine hgo (C := .reading requestId c) ?_ (.inr (.inl rfl))
      simp [exec, hk, halone.pending i c hf.pendable, moveCancel]
    · obtain ⟨_, _, hk⟩ := ha
      rcases hf.cancel with hk' | hk' | hk' | hk' <;> rw [hk] at hk' <;> cases hk'
      refine hgo (C := .comparing requestId (p.original i)) ?_ (.inr (.inr (.inl rfl)))
      simp [exec, hk, hclone, moveCancel]
    · obtain ⟨_, _, hk⟩ := ha
      rcases hf.cancel with hk' | hk' | hk' | hk' <;> rw [hk] at hk' <;> cases hk'
      refine hgo (C := .unlocking requestId true) ?_ (.inr (.inr (.inr rfl)))
      simp [exec, hk, hkept, hf.requestId_eq, moveCancel]
    · obtain ⟨_, _, hk⟩ := ha
      rcases hf.cancel with hk' | hk' | hk' | hk' <;> rw [hk] at hk' <;> cases hk'
      exact .inr (by simp [exec, hk, moveCancel])
    · obtain ⟨_, hk⟩ := ha
      rcases hf.cancel with hk' | hk' | hk' | hk' <;> rw [hk] at hk' <;> cases hk'
  · exact hgo (cancel_exec hmine) hf.cancel

theorem HandsOn.step {requestId : ℕ} (hf : s.HandsOn p k requestId) (h : s.Inv p)
    (halone : s.Alone) (ha : s.Enabled a) :
    (s.exec a).HandsOn (p.exec a) k requestId ∨
      (a = .forwards k ∧ s.cancel k = .forwarding requestId) := by
  rcases hf with ⟨i, c, hf⟩ | hk
  · exact .inl (hf.step h halone ha)
  · by_cases hmine : a.canceller = some k
    · have hforwards : a = .forwards k := by
        rcases canceller_eq_some hmine with ⟨_, rfl⟩ | rfl | rfl | rfl | rfl | rfl | rfl
        case inr.inr.inr.inr.inr.inr => rfl
        all_goals simp [Enabled, hk] at ha
      exact .inr ⟨hforwards, hk⟩
    · exact .inl (.inr ((cancel_exec hmine).trans hk))

omit [DecidableEq ι] [DecidableEq κ] in
/-- A cancellation that finds its request has not returned. -/
theorem HandsOn.cancel_ne {requestId : ℕ} (h : s.HandsOn p k requestId) :
    s.cancel k ≠ .absent := by
  rcases h with ⟨i, c, hf⟩ | hk
  · rcases hf.cancel with hk | hk | hk | hk <;> rw [hk] <;> nofun
  · rw [hk]
    nofun

/-- In the course of the steps, which begin with the cancellation inside `FilterCancelOidRequest`,
and before it is called again, it calls `NdisFCancelOidRequest` for the number. -/
def Forwarded (s : OidFilter ι κ) (k : κ) (requestId : ℕ) (tr : List (OidStep ι κ)) : Prop :=
  ∃ tr₁ tr₂ s₁, tr = tr₁ ++ .forwards k :: tr₂ ∧ (∀ id, .cancels k id ∉ tr₁) ∧
    Sys.Run (Sys.Guarded Serial exec) s tr₁ s₁ ∧
    (s₁.exec (.forwards k)).cancelled = s₁.cancelled ++ [requestId]

theorem Forwarded.append {requestId : ℕ} {tr : List (OidStep ι κ)} (h : s.Forwarded k requestId tr)
    (a : OidStep ι κ) : s.Forwarded k requestId (tr ++ [a]) := by
  obtain ⟨tr₁, tr₂, s₁, rfl, h⟩ := h
  exact ⟨tr₁, tr₂ ++ [a], s₁, by simp, h⟩

/-- A cancellation that finds its request hands it on before it returns. -/
theorem HandsOn.run {tr : List (OidStep ι κ)} {s' : OidFilter ι κ} {requestId : ℕ}
    (hinv : s.Inv p) (halone : s.Alone) (hf : s.HandsOn p k requestId)
    (h : Sys.Run (Sys.Guarded Serial exec) s tr s') :
    ((∃ p, s'.Inv p ∧ s'.HandsOn p k requestId) ∧ s'.Alone ∧ ∀ id, .cancels k id ∉ tr) ∨
      s.Forwarded k requestId tr := by
  refine h.induct (I := fun tr s' => ((∃ p, s'.Inv p ∧ s'.HandsOn p k requestId) ∧ s'.Alone ∧
    ∀ id, .cancels k id ∉ tr) ∨ s.Forwarded k requestId tr)
    (.inl ⟨⟨p, hinv, hf⟩, halone, fun _ => List.not_mem_nil⟩) ?_
  rintro tr s₁ a s₂ hrun hI ⟨⟨ha, hone⟩, rfl⟩
  rcases hI with ⟨⟨p₁, hinv₁, hf₁⟩, halone₁, hnone⟩ | hforwarded
  · rcases hf₁.step hinv₁ halone₁ ha with hf₂ | ⟨rfl, hk⟩
    · refine .inl ⟨⟨_, hinv₁.step ha, hf₂⟩, halone₁.step ha hone, fun id hmem => ?_⟩
      rcases List.mem_append.1 hmem with hmem | hmem
      · exact hnone id hmem
      · obtain rfl := List.mem_singleton.1 hmem
        exact hf₁.cancel_ne ha
    · exact .inr ⟨tr, [], s₁, rfl, hnone, hrun, by simp [exec, hk]⟩
  · exact .inr (hforwarded.append a)

/-- Where a request is handed in only when there is none, a cancellation that has taken the lock
while the request it is for is pending has handed it on by the time it returns. -/
theorem cancelled_of_pending {tr tr' : List (OidStep ι κ)} {s' : OidFilter ι κ} {requestId : ℕ}
    (h : Sys.Run (Sys.Guarded Serial exec) init tr s) (hk : s.cancel k = .looking requestId)
    (hpending : s.IsPending requestId) (h' : Sys.Run (Sys.Guarded Serial exec) s tr' s')
    (hreturned : s'.cancel k = .absent) : s.Forwarded k requestId tr' := by
  obtain ⟨⟨p, hinv⟩, halone⟩ := serial_inv h
  obtain ⟨i, c, clone, r, request, hi, hclone, hrequest, hid⟩ := hpending
  have hstart : s.HandsOn p k requestId := by
    obtain ⟨hkept, clone', hclone'⟩ := hinv.pendable_kept hi
    rw [hclone] at hclone'
    obtain ⟨rfl, rfl⟩ : clone = clone' ∧ r = p.original i := by simpa using hclone'
    obtain rfl := Option.some.inj (hrequest.symm.trans hkept)
    exact .inl ⟨i, c, hi, hid, .inl hk⟩
  rcases hstart.run hinv halone h' with ⟨⟨p', -, hf⟩, -, -⟩ | hforwarded
  · exact absurd hreturned hf.cancel_ne
  · exact hforwarded

theorem cancelled_of_pending_comesBack :
    (goesDown.foldl exec init).Forwarded () 5 comesBack := by
  have hallowed : Sys.Allowed Serial exec (goesDown.foldl exec init) comesBack := by
    refine ⟨⟨⟨_, rfl⟩, trivial⟩, ⟨⟨_, _, rfl⟩, trivial⟩, ⟨⟨_, _, rfl⟩, trivial⟩,
      ⟨⟨_, rfl⟩, trivial⟩, ⟨⟨_, _, rfl⟩, trivial⟩, ⟨⟨_, _, rfl⟩, trivial⟩, ⟨⟨_, rfl⟩, trivial⟩,
      ⟨⟨⟨_, _, _, rfl⟩, rfl⟩, trivial⟩, ⟨⟨_, _, _, rfl⟩, trivial⟩, ⟨⟨_, _, _, rfl⟩, trivial⟩,
      ⟨⟨_, _, _, rfl⟩, trivial⟩, ⟨⟨_, _, _, rfl⟩, trivial⟩, ⟨⟨_, _, _, rfl⟩, trivial⟩,
      ⟨⟨_, _, rfl⟩, trivial⟩, trivial⟩
  exact cancelled_of_pending goesDown_run (k := ()) rfl ⟨(), 3, _, 7, _, rfl, rfl, rfl, rfl⟩
    hallowed.run rfl

end OidFilter

end LcxlNetLoader
