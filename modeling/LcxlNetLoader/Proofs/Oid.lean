import LcxlNetLoader.Oid

/-!
# Every OID request is answered once

Each request is where its position says, and what memory has for it is what a filter that is not
there would know of it. No two requests share a clone, so a step of one leaves alone what the others
have. The clone that is remembered as pending is of a request whose completion has still to take the
lock, or has it. So whoever has the lock and looks at that clone finds it, and the request it was
made of.
-/

namespace LcxlNetLoader

variable {ι κ : Type*}

namespace OidPosition

/-- The clone there is of a request. -/
def clone? : OidPosition → Option ℕ
  | absent | cloning _ | completing _ _ => none
  | preparing _ c | publishing c | sending c | below c | entering c _ | locking c _ _
  | clearing c _ _ | unlocking c _ _ | copying c _ _ | nulling c _ _ | freeing c _ _ => some c

/-- The clone of a request that may be remembered as pending. -/
def pendable : OidPosition → Option ℕ
  | sending c | below c | entering c _ | locking c _ _ | clearing c _ _ => some c
  | absent | cloning _ | preparing _ _ | publishing _ | unlocking _ _ _ | copying _ _ _
  | nulling _ _ _ | freeing _ _ _ | completing _ _ => none

/-- The completion has the lock. -/
def inside : OidPosition → Bool
  | clearing _ _ _ | unlocking _ _ _ => true
  | _ => false

end OidPosition

/-- The cancellation whose step it is. -/
def OidStep.canceller : OidStep ι κ → Option κ
  | .cancels k _ | .cancelLocks k | .looks k | .reads k | .compares k | .cancelUnlocks k
  | .forwards k => some k
  | _ => none

/-- The cancellation has the lock. -/
def CancelPosition.inside : CancelPosition → Bool
  | looking _ | reading _ _ | comparing _ _ | unlocking _ _ => true
  | absent | locking _ | forwarding _ => false

namespace OidRequest

variable {request returned : OidRequest}

/-- What is copied back is all the numbers there are. -/
theorem own_copied (h : returned.requestType = request.requestType) :
    (request.copied returned).own = own { request with data := returned.data } := by
  cases hr : request.requestType <;> simp [copied, own, h, hr]

theorem own_cleared : request.cleared.own =
    own { request with data := ⟨request.data.outputBufferLength, 0, 0, 0⟩ } := by
  cases hr : request.requestType <;> simp [cleared, own, hr]

end OidRequest

namespace PassThrough

/-- The clone's request, as it comes back. -/
def returned (p : PassThrough ι) (i : ι) : OidRequest := { p.request i with data := p.data i }

/-- The request, as it is answered. -/
def answered (p : PassThrough ι) (i : ι) : OidRequest := (p.request i).copied (p.returned i)

/-- What is known of a request is the same. -/
structure SameAt (p p' : PassThrough ι) (i : ι) : Prop where
  original : p'.original i = p.original i
  request : p'.request i = p.request i
  status : p'.status i = p.status i
  data : p'.data i = p.data i

end PassThrough

namespace OidFilter

/-- What memory has for a request. -/
def Kept (s : OidFilter ι κ) (p : PassThrough ι) (i : ι) : OidPosition → Prop
  | .absent => True
  | .cloning r => r = p.original i ∧ s.original r = some (p.request i)
  | .preparing r c => r = p.original i ∧ s.original r = some (p.request i) ∧
      ∃ requestId, s.clone c = some ⟨{ p.request i with requestId }, none⟩
  | .publishing c | .sending c | .below c => s.original (p.original i) = some (p.request i) ∧
      s.clone c = some ⟨p.request i, some (p.original i)⟩
  | .entering c status => status = p.status i ∧ s.original (p.original i) = some (p.request i) ∧
      s.clone c = some ⟨p.returned i, some (p.original i)⟩
  | .locking c status r | .clearing c status r | .unlocking c status r | .copying c status r =>
      status = p.status i ∧ r = p.original i ∧ s.original r = some (p.request i) ∧
      s.clone c = some ⟨p.returned i, some r⟩
  | .nulling c status r => status = p.status i ∧ r = p.original i ∧
      s.original r = some (p.answered i) ∧ s.clone c = some ⟨p.returned i, some r⟩
  | .freeing c status r => status = p.status i ∧ r = p.original i ∧
      s.original r = some (p.answered i) ∧ s.clone c = some ⟨p.returned i, none⟩
  | .completing status r => status = p.status i ∧ r = p.original i ∧
      s.original r = some (p.answered i)

/-- What a cancellation has found is still there. -/
def Looked (s : OidFilter ι κ) (p : PassThrough ι) : CancelPosition → Prop
  | .reading _ c => ∃ i, (s.position i).pendable = some c
  | .comparing _ r => ∃ i c, (s.position i).pendable = some c ∧ p.original i = r
  | .unlocking requestId true =>
    ∃ i c, (s.position i).pendable = some c ∧ (p.request i).requestId = requestId
  | _ => True

structure Inv (s : OidFilter ι κ) (p : PassThrough ι) : Prop where
  fault : s.fault = false
  sent : s.sent = p.sent
  answers : s.answers.map OidAnswer.own = p.answers.map OidAnswer.own
  kept : ∀ i, s.Kept p i (s.position i)
  apart : ∀ i j, i ≠ j → s.position i ≠ .absent → s.position j ≠ .absent →
    p.original i ≠ p.original j
  apartClones : ∀ i j c, i ≠ j → (s.position i).clone? = some c → (s.position j).clone? ≠ some c
  inside : ∀ i, (s.position i).inside = true → s.lock = some (.inl i)
  cancelInside : ∀ k, (s.cancel k).inside = true → s.lock = some (.inr k)
  pending : ∀ c, s.pendingOidRequest = some c → ∃ i, (s.position i).pendable = some c
  looked : ∀ k, s.Looked p (s.cancel k)
  owned : ∀ c, s.clone c ≠ none → ∃ i, (s.position i).clone? = some c
  asked : ∀ r, s.original r ≠ none → ∃ i, s.position i ≠ .absent ∧ p.original i = r

variable {s s' : OidFilter ι κ} {p p' : PassThrough ι} {i j : ι} {P : OidPosition}

/-- A request sees only its own memory, and what is known of it. -/
theorem kept_congr (hp : p.SameAt p' j)
    (horiginal : P ≠ .absent → s'.original (p.original j) = s.original (p.original j))
    (hclone : ∀ c, P.clone? = some c → s'.clone c = s.clone c) (h : s.Kept p j P) :
    s'.Kept p' j P := by
  obtain ⟨h1, h2, h3, h4⟩ := hp
  have hreturned : p'.returned j = p.returned j := by
    rw [PassThrough.returned, h2, h4, PassThrough.returned]
  have hanswered : p'.answered j = p.answered j := by
    rw [PassThrough.answered, h2, hreturned, PassThrough.answered]
  cases P with
  | absent => trivial
  | cloning r =>
    obtain ⟨rfl, h⟩ := h
    exact ⟨h1.symm, by rw [horiginal (by simp), h, h2]⟩
  | completing status r =>
    obtain ⟨hs, rfl, h⟩ := h
    exact ⟨by rw [hs, h3], h1.symm, by rw [horiginal (by simp), h, hanswered]⟩
  | preparing r c =>
    obtain ⟨rfl, h, requestId, hc⟩ := h
    exact ⟨h1.symm, by rw [horiginal (by simp), h, h2], requestId, by rw [hclone c rfl, hc, h2]⟩
  | publishing c | sending c | below c =>
    exact ⟨by rw [h1, horiginal (by simp), h.1, h2], by rw [hclone c rfl, h.2, h1, h2]⟩
  | entering c status =>
    obtain ⟨hs, h, hc⟩ := h
    exact ⟨by rw [hs, h3], by rw [h1, horiginal (by simp), h, h2],
      by rw [hclone c rfl, hc, h1, hreturned]⟩
  | locking c status r | clearing c status r | unlocking c status r | copying c status r =>
    obtain ⟨hs, rfl, h, hc⟩ := h
    exact ⟨by rw [hs, h3], h1.symm, by rw [horiginal (by simp), h, h2],
      by rw [hclone c rfl, hc, hreturned]⟩
  | nulling c status r | freeing c status r =>
    obtain ⟨hs, rfl, h, hc⟩ := h
    exact ⟨by rw [hs, h3], h1.symm, by rw [horiginal (by simp), h, hanswered],
      by rw [hclone c rfl, hc, hreturned]⟩

variable [DecidableEq ι]

/-- What a step of a request does: it goes to its next position, changes memory that is its own, and
takes the lock, has it or lets go of it. It stops being one that may be pending only when it has the
lock and pending is none. -/
structure Moves (s : OidFilter ι κ) (p : PassThrough ι) (i : ι) (P : OidPosition)
    (s' : OidFilter ι κ) (p' : PassThrough ι) : Prop where
  position : s'.position = Function.update s.position i P
  cancel : s'.cancel = s.cancel
  fault : s'.fault = s.fault
  sent : s'.sent = p'.sent
  answers : s'.answers.map OidAnswer.own = p'.answers.map OidAnswer.own
  others : ∀ j, j ≠ i → p.SameAt p' j
  originals : ∀ r, r ≠ p'.original i → s'.original r = s.original r
  clones : ∀ c, (s.position i).clone? ≠ some c → P.clone? ≠ some c → s'.clone c = s.clone c
  kept : s'.Kept p' i P
  apart : ∀ j, j ≠ i → s.position j ≠ .absent → p.original j ≠ p'.original i
  mine : s.position i ≠ .absent → p'.original i = p.original i ∧ p'.request i = p.request i
  apartClones : ∀ c, P.clone? = some c → ∀ j, j ≠ i → (s.position j).clone? ≠ some c
  inside : P.inside = true → s'.lock = some (.inl i)
  lock : ∀ x, x ≠ .inl i → s.lock = some x → s'.lock = some x
  pending : ∀ c, s'.pendingOidRequest = some c →
    P.pendable = some c ∨ (s.pendingOidRequest = some c ∧ ((s.position i).pendable = some c →
      P.pendable = some c))
  pendable : s.lock = some (.inl i) ∨ ∀ c, (s.position i).pendable = some c → P.pendable = some c
  freed : ∀ c, (s.position i).clone? = some c → P.clone? = some c ∨ s'.clone c = none
  returned : P = .absent → s'.original (p'.original i) = none

theorem Inv.moves (h : s.Inv p) (hm : s.Moves p i P s' p') : s'.Inv p' := by
  have hi : s'.position i = P := by rw [hm.position, Function.update_self]
  have hj : ∀ j, j ≠ i → s'.position j = s.position j := fun j hne => by
    rw [hm.position, Function.update_of_ne hne]
  refine
    { fault := hm.fault.trans h.fault
      sent := hm.sent
      answers := hm.answers
      kept := fun j => ?_
      apart := fun j k hne hpj hpk => ?_
      apartClones := fun j k c hne hcj => ?_
      inside := fun j hin => ?_
      cancelInside := fun k hin => ?_
      pending := fun c hc => ?_
      looked := fun k => ?_
      owned := fun c hc => ?_
      asked := fun r hr => ?_ }
  · rcases eq_or_ne j i with rfl | hne
    · exact hi ▸ hm.kept
    · rw [hj j hne]
      refine kept_congr (hm.others j hne) (fun hP => hm.originals _ (hm.apart j hne hP))
        (fun c hc => hm.clones c (fun hci => h.apartClones j i c hne hc hci) fun hcP => ?_)
        (h.kept j)
      exact hm.apartClones c hcP j hne hc
  · rcases eq_or_ne j i with rfl | hji
    · rw [hj k hne.symm] at hpk
      rw [(hm.others k hne.symm).original]
      exact (hm.apart k hne.symm hpk).symm
    · rw [hj j hji] at hpj
      rw [(hm.others j hji).original]
      rcases eq_or_ne k i with rfl | hki
      · exact hm.apart j hji hpj
      · rw [hj k hki] at hpk
        rw [(hm.others k hki).original]
        exact h.apart j k hne hpj hpk
  · rcases eq_or_ne j i with rfl | hji
    · rw [hj k hne.symm]
      exact hm.apartClones c (hi ▸ hcj) k hne.symm
    · rw [hj j hji] at hcj
      rcases eq_or_ne k i with rfl | hki
      · rw [hi]
        exact fun hcP => hm.apartClones c hcP j hji hcj
      · rw [hj k hki]
        exact h.apartClones j k c hne hcj
  · rcases eq_or_ne j i with rfl | hji
    · exact hm.inside (hi ▸ hin)
    · rw [hj j hji] at hin
      exact hm.lock _ (by simpa using hji) (h.inside j hin)
  · rw [hm.cancel] at hin
    exact hm.lock _ (by simp) (h.cancelInside k hin)
  · rcases hm.pending c hc with hP | ⟨hold, hkeeps⟩
    · exact ⟨i, hi ▸ hP⟩
    · obtain ⟨j, hpj⟩ := h.pending c hold
      rcases eq_or_ne j i with rfl | hji
      · exact ⟨j, hi ▸ hkeeps hpj⟩
      · exact ⟨j, (hj j hji).symm ▸ hpj⟩
  · rw [hm.cancel]
    -- Where the step's request may no longer be pending it has the lock, so no cancellation has it.
    have hkeeps : (s.cancel k).inside = true → ∀ j c, (s.position j).pendable = some c →
        (s'.position j).pendable = some c := by
      intro hin j c hpj
      rcases eq_or_ne j i with rfl | hji
      · rcases hm.pendable with hlock | hkeeps
        · rw [h.cancelInside k hin] at hlock
          cases hlock
        · exact hi ▸ hkeeps c hpj
      · exact (hj j hji).symm ▸ hpj
    have hsame : ∀ j c, (s.position j).pendable = some c →
        p'.original j = p.original j ∧ p'.request j = p.request j := by
      intro j c hpj
      rcases eq_or_ne j i with rfl | hji
      · refine hm.mine fun hnone => ?_
        rw [hnone] at hpj
        cases hpj
      · exact ⟨(hm.others j hji).original, (hm.others j hji).request⟩
    have hlooked := h.looked k
    rcases hk : s.cancel k with _ | _ | _ | ⟨requestId, c⟩ | ⟨requestId, r⟩ | ⟨requestId, _ | _⟩ | _
    case reading =>
      rw [hk] at hlooked hkeeps
      obtain ⟨j, hpj⟩ := hlooked
      exact ⟨j, hkeeps rfl j c hpj⟩
    case comparing =>
      rw [hk] at hlooked hkeeps
      obtain ⟨j, c, hpj, hr⟩ := hlooked
      exact ⟨j, c, hkeeps rfl j c hpj, (hsame j c hpj).1.trans hr⟩
    case unlocking.true =>
      rw [hk] at hlooked hkeeps
      obtain ⟨j, c, hpj, hr⟩ := hlooked
      exact ⟨j, c, hkeeps rfl j c hpj, (hsame j c hpj).2 ▸ hr⟩
    all_goals trivial
  · by_cases hP : P.clone? = some c
    · exact ⟨i, hi ▸ hP⟩
    by_cases hci : (s.position i).clone? = some c
    · exact absurd ((hm.freed c hci).resolve_left hP) hc
    · rw [hm.clones c hci hP] at hc
      obtain ⟨j, hcj⟩ := h.owned c hc
      have hji : j ≠ i := by
        rintro rfl
        exact hci hcj
      exact ⟨j, (hj j hji).symm ▸ hcj⟩
  · rcases eq_or_ne r (p'.original i) with rfl | hne
    · exact ⟨i, fun hnone => hr (hm.returned (hi ▸ hnone)), rfl⟩
    · rw [hm.originals r hne] at hr
      obtain ⟨j, hpj, rfl⟩ := h.asked r hr
      have hji : j ≠ i := by
        rintro rfl
        exact hne (hm.mine hpj).1.symm
      exact ⟨j, (hj j hji).symm ▸ hpj, (hm.others j hji).original⟩

/-- A request that is there goes on, with what it has or less: of its clone and its original, what
it does not have afterwards is gone. -/
structure Passes (s : OidFilter ι κ) (p : PassThrough ι) (i : ι) (P : OidPosition)
    (s' : OidFilter ι κ) : Prop where
  here : s.position i ≠ .absent
  clone : ∀ c, P.clone? = some c → (s.position i).clone? = some c
  freed : ∀ c, (s.position i).clone? = some c → P.clone? = some c ∨ s'.clone c = none
  returned : P = .absent → s'.original (p.original i) = none

omit [DecidableEq ι] in
/-- It goes on with the clone it has. -/
theorem Passes.of_clone {Q : OidPosition} (hpos : s.position i = Q) (hQ : Q ≠ .absent)
    (hP : P ≠ .absent) (hclone : P.clone? = Q.clone?) : s.Passes p i P s' where
  here := hpos ▸ hQ
  clone c hc := by rw [hpos, ← hclone, hc]
  freed c hc := .inl (by rw [hclone, ← hpos, hc])
  returned h := absurd h hP

/-- It writes nothing else but its position and its own memory. -/
structure Writes (s : OidFilter ι κ) (p : PassThrough ι) (i : ι) (P : OidPosition)
    (s' : OidFilter ι κ) (p' : PassThrough ι) : Prop where
  position : s'.position = Function.update s.position i P
  cancel : s'.cancel = s.cancel
  fault : s'.fault = s.fault
  sent : s'.sent = p'.sent
  answers : s'.answers.map OidAnswer.own = p'.answers.map OidAnswer.own
  others : ∀ j, j ≠ i → p.SameAt p' j
  mine : p'.original i = p.original i ∧ p'.request i = p.request i
  originals : ∀ r, r ≠ p.original i → s'.original r = s.original r
  clones : ∀ c, (s.position i).clone? ≠ some c → s'.clone c = s.clone c
  kept : s'.Kept p' i P

/-- It writes its position alone, beside the lock and what is pending. -/
theorem Writes.of_kept {lock : Option (ι ⊕ κ)} {pending : Option ℕ} (h : s.Inv p)
    (hk : s.Kept p i P) :
    s.Writes p i P { s with
      position := Function.update s.position i P
      lock := lock
      pendingOidRequest := pending } p where
  position := rfl
  cancel := rfl
  fault := rfl
  sent := h.sent
  answers := h.answers
  others _ _ := ⟨rfl, rfl, rfl, rfl⟩
  mine := ⟨rfl, rfl⟩
  originals _ _ := rfl
  clones _ _ := rfl
  kept := hk

/-- It writes its clone. -/
theorem Writes.of_setClone {c : ℕ} {clone : Option OidClone} (h : s.Inv p)
    (hc : (s.position i).clone? = some c) (hk : (s.setClone c clone).Kept p i P) :
    s.Writes p i P ((s.setClone c clone).move i P) p where
  position := rfl
  cancel := rfl
  fault := rfl
  sent := h.sent
  answers := h.answers
  others _ _ := ⟨rfl, rfl, rfl, rfl⟩
  mine := ⟨rfl, rfl⟩
  originals _ _ := rfl
  clones c' hc' := Function.update_of_ne (by rintro rfl; exact hc' hc) ..
  kept := hk

theorem Inv.goes (h : s.Inv p) (hpasses : s.Passes p i P s') (hwrites : s.Writes p i P s' p')
    (hinside : P.inside = true → s'.lock = some (.inl i))
    (hlock : ∀ x, x ≠ .inl i → s.lock = some x → s'.lock = some x)
    (hpending : ∀ c, s'.pendingOidRequest = some c → P.pendable = some c ∨
      (s.pendingOidRequest = some c ∧ ((s.position i).pendable = some c → P.pendable = some c)))
    (hpendable : s.lock = some (.inl i) ∨
      ∀ c, (s.position i).pendable = some c → P.pendable = some c) : s'.Inv p' :=
  h.moves (i := i) (P := P)
    { position := hwrites.position
      cancel := hwrites.cancel
      fault := hwrites.fault
      sent := hwrites.sent
      answers := hwrites.answers
      others := hwrites.others
      originals := fun r hr => hwrites.originals r (hwrites.mine.1 ▸ hr)
      clones := fun c hc _ => hwrites.clones c hc
      kept := hwrites.kept
      apart := fun j hj hpj => hwrites.mine.1 ▸ h.apart j i hj hpj hpasses.here
      mine := fun _ => hwrites.mine
      apartClones := fun c hc j hj => h.apartClones i j c hj.symm (hpasses.clone c hc)
      inside := hinside
      lock := hlock
      pending := hpending
      pendable := hpendable
      freed := hpasses.freed
      returned := fun hP => hwrites.mine.1 ▸ hpasses.returned hP }

/-- A request goes on, and neither the lock nor what is pending changes. -/
theorem Inv.goes_quietly (h : s.Inv p) (hpasses : s.Passes p i P s')
    (hwrites : s.Writes p i P s' p')
    (hpendable : ∀ c, (s.position i).pendable = some c → P.pendable = some c)
    (hinside : P.inside = false) (hlock : s'.lock = s.lock)
    (hpending : s'.pendingOidRequest = s.pendingOidRequest) : s'.Inv p' :=
  h.goes hpasses hwrites (fun hin => absurd (hinside ▸ hin) Bool.false_ne_true)
    (fun _ _ hx => hlock ▸ hx) (fun c hc => .inr ⟨hpending ▸ hc, hpendable c⟩) (.inr hpendable)

omit [DecidableEq ι] in
/-- A request that is with the filter is there. -/
theorem Kept.outstanding (h : s.Kept p i P) (hP : P ≠ .absent) :
    ∃ request, s.original (p.original i) = some request := by
  cases P with
  | absent => exact absurd rfl hP
  | cloning r => exact ⟨_, h.1 ▸ h.2⟩
  | preparing r c => exact ⟨_, h.1 ▸ h.2.1⟩
  | publishing c | sending c | below c => exact ⟨_, h.1⟩
  | entering c status => exact ⟨_, h.2.1⟩
  | locking c status r | clearing c status r | unlocking c status r | copying c status r
  | nulling c status r | freeing c status r => exact ⟨_, h.2.1 ▸ h.2.2.1⟩
  | completing status r => exact ⟨_, h.2.1 ▸ h.2.2⟩

omit [DecidableEq ι] in
/-- A clone that a request has is there. -/
theorem Kept.cloned {c : ℕ} (h : s.Kept p i P) (hc : P.clone? = some c) :
    ∃ clone, s.clone c = some clone := by
  cases P with
  | absent | cloning r | completing status r => cases hc
  | preparing r c' =>
    obtain rfl := Option.some.inj hc
    obtain ⟨-, -, requestId, hclone⟩ := h
    exact ⟨_, hclone⟩
  | publishing c' | sending c' | below c' => exact ⟨_, Option.some.inj hc ▸ h.2⟩
  | entering c' status => exact ⟨_, Option.some.inj hc ▸ h.2.2⟩
  | locking c' status r | clearing c' status r | unlocking c' status r | copying c' status r
  | nulling c' status r | freeing c' status r => exact ⟨_, Option.some.inj hc ▸ h.2.2.2⟩

section Requests

variable [DecidableEq κ]

theorem Inv.arrives {r : ℕ} {request : OidRequest} (h : s.Inv p)
    (ha : s.Enabled (.arrives i r request)) :
    (s.exec (.arrives i r request)).Inv (p.exec (.arrives (κ := κ) i r request)) := by
  obtain ⟨hpos, hfree⟩ := ha
  have hr : (p.exec (.arrives (κ := κ) i r request)).original i = r := Function.update_self ..
  simp only [exec, hpos]
  refine h.moves (i := i) (P := .cloning r)
    { position := rfl
      cancel := rfl
      fault := rfl
      sent := h.sent
      answers := h.answers
      others := fun j hj => ⟨Function.update_of_ne hj .., Function.update_of_ne hj .., rfl, rfl⟩
      originals := fun r' hr' => Function.update_of_ne (hr ▸ hr') ..
      clones := fun c _ _ => rfl
      kept := ⟨hr.symm, by simp [move, setOriginal, PassThrough.exec]⟩
      apart := fun j hj hpj heq => ?_
      mine := fun hne => absurd hpos hne
      apartClones := by simp [OidPosition.clone?]
      inside := by simp [OidPosition.inside]
      lock := fun x _ hx => hx
      pending := fun c hc => .inr ⟨hc, by simp [hpos, OidPosition.pendable]⟩
      pendable := .inr (by simp [hpos, OidPosition.pendable])
      freed := by simp [hpos, OidPosition.clone?]
      returned := by simp }
  -- A request that is with the filter is not handed in again.
  obtain ⟨request', hrequest'⟩ := (h.kept j).outstanding hpj
  rw [heq, hr, hfree] at hrequest'
  cases hrequest'

omit [DecidableEq κ] in
/-- A request without a clone is answered, and not with the filter any more. -/
theorem Inv.answered {Q : OidPosition} (h : s.Inv p) (hpos : s.position i = Q) (hQ : Q ≠ .absent)
    (hclone : Q.clone? = none) (hpendable : Q.pendable = none) (status : ℕ)
    {request request' : OidRequest} (hown : request.own = request'.own) :
    ((s.answer (p.original i) status request).move i .absent).Inv
      { p with answers := p.answers ++ [⟨p.original i, status, request'⟩] } :=
  h.goes_quietly (i := i) (P := .absent)
    { here := hpos ▸ hQ
      clone := by simp [OidPosition.clone?]
      freed := by simp [hpos, hclone]
      returned := fun _ => Function.update_self .. }
    { position := rfl
      cancel := rfl
      fault := rfl
      sent := h.sent
      answers := by
        have hanswer : OidAnswer.own ⟨p.original i, status, request⟩ =
            OidAnswer.own ⟨p.original i, status, request'⟩ :=
          congrArg (OidAnswer.mk (p.original i) status) hown
        simp only [answer, move, List.map_append, List.map_cons, List.map_nil, hanswer]
        exact congrArg (· ++ _) h.answers
      others := fun _ _ => ⟨rfl, rfl, rfl, rfl⟩
      mine := ⟨rfl, rfl⟩
      originals := fun r hr => Function.update_of_ne hr ..
      clones := fun _ _ => rfl
      kept := trivial }
    (by simp [hpos, hpendable]) rfl rfl rfl

theorem Inv.cloneFails {status : ℕ} (h : s.Inv p) (ha : s.Enabled (.cloneFails i status)) :
    (s.exec (.cloneFails i status)).Inv (p.exec (.cloneFails (κ := κ) i status)) := by
  obtain ⟨r, hpos⟩ := ha
  have hk := h.kept i
  rw [hpos] at hk
  obtain ⟨rfl, hrequest⟩ := hk
  simp only [exec, hpos, hrequest]
  exact h.answered hpos (by simp) rfl rfl _ OidRequest.own_cleared

theorem Inv.clones {c requestId : ℕ} (h : s.Inv p) (ha : s.Enabled (.clones i c requestId)) :
    (s.exec (.clones i c requestId)).Inv (p.exec (.clones (κ := κ) i c requestId)) := by
  obtain ⟨⟨r, hpos⟩, hfree⟩ := ha
  have hne : s.position i ≠ .absent := by simp [hpos]
  have hk := h.kept i
  rw [hpos] at hk
  obtain ⟨rfl, hrequest⟩ := hk
  simp only [exec, hpos, hrequest]
  refine h.moves (i := i) (P := .preparing (p.original i) c)
    { position := rfl
      cancel := rfl
      fault := rfl
      sent := h.sent
      answers := h.answers
      others := fun _ _ => ⟨rfl, rfl, rfl, rfl⟩
      originals := fun r' _ => rfl
      clones := fun c' _ hc' => Function.update_of_ne (fun heq => hc' (congrArg some heq.symm)) ..
      kept := ⟨rfl, hrequest, requestId, Function.update_self ..⟩
      apart := fun j hj hpj => h.apart j i hj hpj hne
      mine := fun _ => ⟨rfl, rfl⟩
      apartClones := fun c' hc' j _ hcj => ?_
      inside := by simp [OidPosition.inside]
      lock := fun x _ hx => hx
      pending := fun c' hc' => .inr ⟨hc', by simp [hpos, OidPosition.pendable]⟩
      pendable := .inr (by simp [hpos, OidPosition.pendable])
      freed := by simp [hpos, OidPosition.clone?]
      returned := by simp }
  -- The clone of another request is not allocated again.
  obtain rfl := Option.some.inj hc'
  obtain ⟨clone, hclone⟩ := (h.kept j).cloned hcj
  rw [hfree] at hclone
  cases hclone

theorem Inv.prepares (h : s.Inv p) (ha : s.Enabled (.prepares i)) :
    (s.exec (.prepares i)).Inv (p.exec (.prepares (κ := κ) i)) := by
  obtain ⟨r, c, hpos⟩ := ha
  have hk := h.kept i
  rw [hpos] at hk
  obtain ⟨rfl, hrequest, requestId, hclone⟩ := hk
  simp only [exec, hpos, hrequest, hclone]
  exact h.goes_quietly (i := i) (P := .publishing c) (.of_clone hpos (by simp) (by simp) rfl)
    (.of_setClone h (by rw [hpos]; rfl) ⟨hrequest, Function.update_self ..⟩)
    (by simp [hpos, OidPosition.pendable]) rfl rfl rfl

theorem Inv.publishes (h : s.Inv p) (ha : s.Enabled (.publishes i)) :
    (s.exec (.publishes i)).Inv (p.exec (.publishes (κ := κ) i)) := by
  obtain ⟨c, hpos⟩ := ha
  have hk := h.kept i
  rw [hpos] at hk
  simp only [exec, hpos]
  exact h.goes (i := i) (P := .sending c) (.of_clone hpos (by simp) (by simp) rfl)
    (.of_kept h hk)
    (by simp [OidPosition.inside]) (fun x _ hx => hx) (fun c' hc' => .inl hc')
    (.inr (by simp [hpos, OidPosition.pendable]))

theorem Inv.sends (h : s.Inv p) (ha : s.Enabled (.sends i)) :
    (s.exec (.sends i)).Inv (p.exec (.sends (κ := κ) i)) := by
  obtain ⟨c, hpos⟩ := ha
  have hk := h.kept i
  rw [hpos] at hk
  simp only [exec, hpos, hk.2]
  exact h.goes_quietly (i := i) (P := .below c) (.of_clone hpos (by simp) (by simp) rfl)
    { position := rfl
      cancel := rfl
      fault := rfl
      sent := congrArg (· ++ _) h.sent
      answers := h.answers
      others := fun _ _ => ⟨rfl, rfl, rfl, rfl⟩
      mine := ⟨rfl, rfl⟩
      originals := fun _ _ => rfl
      clones := fun _ _ => rfl
      kept := hk }
    (by simp [hpos, OidPosition.pendable]) rfl rfl rfl

theorem Inv.completesBelow {status : ℕ} {data : OidData} (h : s.Inv p)
    (ha : s.Enabled (.completesBelow i status data)) :
    (s.exec (.completesBelow i status data)).Inv
      (p.exec (.completesBelow (κ := κ) i status data)) := by
  obtain ⟨c, hpos⟩ := ha
  have hk := h.kept i
  rw [hpos] at hk
  simp only [exec, hpos, hk.2]
  exact h.goes_quietly (i := i) (P := .entering c status) (.of_clone hpos (by simp) (by simp) rfl)
    { position := rfl
      cancel := rfl
      fault := rfl
      sent := h.sent
      answers := h.answers
      others := fun j hj => ⟨rfl, rfl, Function.update_of_ne hj .., Function.update_of_ne hj ..⟩
      mine := ⟨rfl, rfl⟩
      originals := fun _ _ => rfl
      clones := fun c' hc' =>
        Function.update_of_ne (by rintro rfl; simp [hpos, OidPosition.clone?] at hc') ..
      kept := ⟨by simp [PassThrough.exec], hk.1, by
        simp [move, setClone, PassThrough.exec, PassThrough.returned]⟩ }
    (by simp [hpos, OidPosition.pendable]) rfl rfl rfl

theorem Inv.enters (h : s.Inv p) (ha : s.Enabled (.enters i)) :
    (s.exec (.enters i)).Inv (p.exec (.enters (κ := κ) i)) := by
  obtain ⟨c, status, hpos⟩ := ha
  have hk := h.kept i
  rw [hpos] at hk
  simp only [exec, hpos, hk.2.2]
  exact h.goes_quietly (i := i) (P := .locking c status (p.original i))
    (.of_clone hpos (by simp) (by simp) rfl)
    (.of_kept h ⟨hk.1, rfl, hk.2.1, hk.2.2⟩)
    (by simp [hpos, OidPosition.pendable]) rfl rfl rfl

theorem Inv.locks (h : s.Inv p) (ha : s.Enabled (.locks i)) :
    (s.exec (.locks i)).Inv (p.exec (.locks (κ := κ) i)) := by
  obtain ⟨⟨c, status, r, hpos⟩, hfree⟩ := ha
  have hk := h.kept i
  rw [hpos] at hk
  simp only [exec, hpos]
  exact h.goes (i := i) (P := .clearing c status r) (.of_clone hpos (by simp) (by simp) rfl)
    (.of_kept h hk)
    (fun _ => rfl) (fun x _ hx => absurd (hfree.symm.trans hx) (by simp))
    (fun c' hc' => .inr ⟨hc', by simp [hpos, OidPosition.pendable]⟩)
    (.inr (by simp [hpos, OidPosition.pendable]))

theorem Inv.clears (h : s.Inv p) (ha : s.Enabled (.clears i)) :
    (s.exec (.clears i)).Inv (p.exec (.clears (κ := κ) i)) := by
  obtain ⟨c, status, r, hpos⟩ := ha
  have hk := h.kept i
  rw [hpos] at hk
  have hlock : s.lock = some (.inl i) := h.inside i (by rw [hpos]; rfl)
  simp only [exec, hpos]
  exact h.goes (i := i) (P := .unlocking c status r) (.of_clone hpos (by simp) (by simp) rfl)
    (.of_kept h hk)
    (fun _ => hlock) (fun x _ hx => hx) (by simp) (.inl hlock)

theorem Inv.unlocks (h : s.Inv p) (ha : s.Enabled (.unlocks i)) :
    (s.exec (.unlocks i)).Inv (p.exec (.unlocks (κ := κ) i)) := by
  obtain ⟨c, status, r, hpos⟩ := ha
  have hk := h.kept i
  rw [hpos] at hk
  have hlock : s.lock = some (.inl i) := h.inside i (by rw [hpos]; rfl)
  simp only [exec, hpos]
  exact h.goes (i := i) (P := .copying c status r) (.of_clone hpos (by simp) (by simp) rfl)
    (.of_kept h hk)
    (by simp [OidPosition.inside])
    (fun x hx hxi => absurd (Option.some.inj (hxi.symm.trans hlock)) hx)
    (fun c' hc' => .inr ⟨hc', by simp [hpos, OidPosition.pendable]⟩) (.inl hlock)

theorem Inv.copies (h : s.Inv p) (ha : s.Enabled (.copies i)) :
    (s.exec (.copies i)).Inv (p.exec (.copies (κ := κ) i)) := by
  obtain ⟨c, status, r, hpos⟩ := ha
  have hk := h.kept i
  rw [hpos] at hk
  obtain ⟨hs, rfl, hrequest, hclone⟩ := hk
  simp only [exec, hpos, hrequest, hclone]
  exact h.goes_quietly (i := i) (P := .nulling c status (p.original i))
    (.of_clone hpos (by simp) (by simp) rfl)
    { position := rfl
      cancel := rfl
      fault := rfl
      sent := h.sent
      answers := h.answers
      others := fun _ _ => ⟨rfl, rfl, rfl, rfl⟩
      mine := ⟨rfl, rfl⟩
      originals := fun r hr => Function.update_of_ne hr ..
      clones := fun _ _ => rfl
      kept := ⟨hs, rfl, Function.update_self .., hclone⟩ }
    (by simp [hpos, OidPosition.pendable]) rfl rfl rfl

theorem Inv.nulls (h : s.Inv p) (ha : s.Enabled (.nulls i)) :
    (s.exec (.nulls i)).Inv (p.exec (.nulls (κ := κ) i)) := by
  obtain ⟨c, status, r, hpos⟩ := ha
  have hk := h.kept i
  rw [hpos] at hk
  obtain ⟨hs, rfl, hrequest, hclone⟩ := hk
  simp only [exec, hpos, hclone]
  exact h.goes_quietly (i := i) (P := .freeing c status (p.original i))
    (.of_clone hpos (by simp) (by simp) rfl)
    (.of_setClone h (by rw [hpos]; rfl) ⟨hs, rfl, hrequest, Function.update_self ..⟩)
    (by simp [hpos, OidPosition.pendable]) rfl rfl rfl

theorem Inv.frees (h : s.Inv p) (ha : s.Enabled (.frees i)) :
    (s.exec (.frees i)).Inv (p.exec (.frees (κ := κ) i)) := by
  obtain ⟨c, status, r, hpos⟩ := ha
  have hk := h.kept i
  rw [hpos] at hk
  obtain ⟨hs, rfl, hrequest, hclone⟩ := hk
  simp only [exec, hpos, hclone]
  exact h.goes_quietly (i := i) (P := .completing status (p.original i))
    { here := by simp [hpos]
      clone := by simp [OidPosition.clone?]
      freed := fun c' hc' => .inr (by
        simp [hpos, OidPosition.clone?] at hc'
        simp [move, setClone, hc'])
      returned := by simp }
    (.of_setClone h (by rw [hpos]; rfl) ⟨hs, rfl, hrequest⟩)
    (by simp [hpos, OidPosition.pendable]) rfl rfl rfl

theorem Inv.completes (h : s.Inv p) (ha : s.Enabled (.completes i)) :
    (s.exec (.completes i)).Inv (p.exec (.completes (κ := κ) i)) := by
  obtain ⟨status, r, hpos⟩ := ha
  have hk := h.kept i
  rw [hpos] at hk
  obtain ⟨rfl, rfl, hrequest⟩ := hk
  simp only [exec, hpos, hrequest]
  exact h.answered hpos (by simp) rfl rfl _ (OidRequest.own_copied rfl)

end Requests

section Cancellations

variable [DecidableEq κ] {k : κ} {C : CancelPosition}

omit [DecidableEq ι] in
/-- A cancellation goes on, and takes the lock, has it or lets go of it. -/
theorem Inv.goes_cancel (h : s.Inv p) (hcancel : s'.cancel = Function.update s.cancel k C)
    (hposition : s'.position = s.position) (hfault : s'.fault = s.fault)
    (hlogs : s'.sent = s.sent ∧ s'.answers = s.answers)
    (hmemory : s'.original = s.original ∧ s'.clone = s.clone)
    (hpending : s'.pendingOidRequest = s.pendingOidRequest)
    (hinside : C.inside = true → s'.lock = some (.inr k))
    (hlock : ∀ x, x ≠ .inr k → s.lock = some x → s'.lock = some x) (hlooked : s.Looked p C) :
    s'.Inv p := by
  have hsame : ∀ C', s.Looked p C' → s'.Looked p C' := by
    intro C' hC'
    unfold Looked at *
    rwa [hposition]
  refine
    { fault := hfault.trans h.fault
      sent := hlogs.1.trans h.sent
      answers := (congrArg _ hlogs.2).trans h.answers
      kept := fun i => ?_
      apart := by simpa only [hposition] using h.apart
      apartClones := by simpa only [hposition] using h.apartClones
      inside := fun i hin => hlock _ (by simp) (h.inside i (hposition ▸ hin))
      cancelInside := fun k' hin => ?_
      pending := by simpa only [hposition, hpending] using h.pending
      looked := fun k' => ?_
      owned := by simpa only [hposition, hmemory.2] using h.owned
      asked := by simpa only [hposition, hmemory.1] using h.asked }
  · rw [hposition]
    exact kept_congr ⟨rfl, rfl, rfl, rfl⟩ (fun _ => congrFun hmemory.1 _)
      (fun c _ => congrFun hmemory.2 c) (h.kept i)
  · rw [hcancel] at hin
    rcases eq_or_ne k' k with rfl | hne
    · rw [Function.update_self] at hin
      exact hinside hin
    · rw [Function.update_of_ne hne] at hin
      exact hlock _ (by simpa using hne) (h.cancelInside k' hin)
  · rw [hcancel]
    rcases eq_or_ne k' k with rfl | hne
    · rw [Function.update_self]
      exact hsame C hlooked
    · rw [Function.update_of_ne hne]
      exact hsame _ (h.looked k')

omit [DecidableEq ι] [DecidableEq κ] in
/-- A request that may be pending is there as it came, and so is its clone, which points to it. -/
theorem Inv.pendable_kept {c : ℕ} (h : s.Inv p) (hc : (s.position i).pendable = some c) :
    s.original (p.original i) = some (p.request i) ∧
      ∃ request, s.clone c = some ⟨request, some (p.original i)⟩ := by
  have hk := h.kept i
  cases hpos : s.position i <;> rw [hpos] at hc hk <;> cases hc
  case sending => exact ⟨hk.1, _, hk.2⟩
  case below => exact ⟨hk.1, _, hk.2⟩
  case entering => exact ⟨hk.2.1, _, hk.2.2⟩
  case locking =>
    obtain ⟨-, rfl, hrequest, hclone⟩ := hk
    exact ⟨hrequest, _, hclone⟩
  case clearing =>
    obtain ⟨-, rfl, hrequest, hclone⟩ := hk
    exact ⟨hrequest, _, hclone⟩

theorem Inv.cancels {requestId : ℕ} (h : s.Inv p) (ha : s.Enabled (.cancels k requestId)) :
    (s.exec (.cancels k requestId)).Inv p := by
  have hpos : s.cancel k = .absent := ha
  simp only [exec, hpos]
  exact h.goes_cancel (k := k) (C := .locking requestId) rfl rfl rfl ⟨rfl, rfl⟩ ⟨rfl, rfl⟩ rfl
    (by simp [CancelPosition.inside]) (fun x _ hx => hx) trivial

theorem Inv.cancelLocks (h : s.Inv p) (ha : s.Enabled (.cancelLocks k)) :
    (s.exec (.cancelLocks k)).Inv p := by
  obtain ⟨⟨requestId, hpos⟩, hfree⟩ := ha
  simp only [exec, hpos]
  exact h.goes_cancel (k := k) (C := .looking requestId) rfl rfl rfl ⟨rfl, rfl⟩ ⟨rfl, rfl⟩ rfl
    (fun _ => rfl) (fun x _ hx => absurd (hfree.symm.trans hx) (by simp)) trivial

theorem Inv.looks (h : s.Inv p) (ha : s.Enabled (.looks k)) : (s.exec (.looks k)).Inv p := by
  obtain ⟨requestId, hpos⟩ := ha
  have hlock : s.lock = some (.inr k) := h.cancelInside k (by rw [hpos]; rfl)
  simp only [exec, hpos]
  rcases hpending : s.pendingOidRequest with _ | c
  · exact h.goes_cancel (k := k) (C := .unlocking requestId false) rfl rfl rfl ⟨rfl, rfl⟩
      ⟨rfl, rfl⟩ rfl (fun _ => hlock) (fun x _ hx => hx) trivial
  · exact h.goes_cancel (k := k) (C := .reading requestId c) rfl rfl rfl ⟨rfl, rfl⟩ ⟨rfl, rfl⟩ rfl
      (fun _ => hlock) (fun x _ hx => hx) (h.pending c hpending)

theorem Inv.reads (h : s.Inv p) (ha : s.Enabled (.reads k)) : (s.exec (.reads k)).Inv p := by
  obtain ⟨requestId, c, hpos⟩ := ha
  have hlock : s.lock = some (.inr k) := h.cancelInside k (by rw [hpos]; rfl)
  have hlooked := h.looked k
  rw [hpos] at hlooked
  obtain ⟨i, hi⟩ := hlooked
  obtain ⟨-, request, hclone⟩ := h.pendable_kept hi
  simp only [exec, hpos, hclone]
  exact h.goes_cancel (k := k) (C := .comparing requestId (p.original i)) rfl rfl rfl ⟨rfl, rfl⟩
    ⟨rfl, rfl⟩ rfl (fun _ => hlock) (fun x _ hx => hx) ⟨i, c, hi, rfl⟩

theorem Inv.compares (h : s.Inv p) (ha : s.Enabled (.compares k)) :
    (s.exec (.compares k)).Inv p := by
  obtain ⟨requestId, r, hpos⟩ := ha
  have hlock : s.lock = some (.inr k) := h.cancelInside k (by rw [hpos]; rfl)
  have hlooked := h.looked k
  rw [hpos] at hlooked
  obtain ⟨i, c, hi, rfl⟩ := hlooked
  simp only [exec, hpos, (h.pendable_kept hi).1]
  refine h.goes_cancel (k := k) (C := .unlocking requestId _) rfl rfl rfl ⟨rfl, rfl⟩ ⟨rfl, rfl⟩ rfl
    (fun _ => hlock) (fun x _ hx => hx) ?_
  by_cases heq : (p.request i).requestId = requestId
  · rw [decide_eq_true heq]
    exact ⟨i, c, hi, heq⟩
  · rw [decide_eq_false heq]
    trivial

theorem Inv.cancelUnlocks (h : s.Inv p) (ha : s.Enabled (.cancelUnlocks k)) :
    (s.exec (.cancelUnlocks k)).Inv p := by
  obtain ⟨requestId, found, hpos⟩ := ha
  have hlock : s.lock = some (.inr k) := h.cancelInside k (by rw [hpos]; rfl)
  have hothers : ∀ x, x ≠ .inr k → s.lock = some x → none = some x := fun x hx hxk =>
    absurd (Option.some.inj (hxk.symm.trans hlock)) hx
  simp only [exec, hpos]
  cases found with
  | false =>
    exact h.goes_cancel (k := k) (C := .absent) rfl rfl rfl ⟨rfl, rfl⟩ ⟨rfl, rfl⟩ rfl
      (by simp [CancelPosition.inside]) hothers trivial
  | true =>
    exact h.goes_cancel (k := k) (C := .forwarding requestId) rfl rfl rfl ⟨rfl, rfl⟩ ⟨rfl, rfl⟩ rfl
      (by simp [CancelPosition.inside]) hothers trivial

theorem Inv.forwards (h : s.Inv p) (ha : s.Enabled (.forwards k)) :
    (s.exec (.forwards k)).Inv p := by
  obtain ⟨requestId, hpos⟩ := ha
  simp only [exec, hpos]
  exact h.goes_cancel (k := k) (C := .absent) rfl rfl rfl ⟨rfl, rfl⟩ ⟨rfl, rfl⟩ rfl
    (by simp [CancelPosition.inside]) (fun x _ hx => hx) trivial

omit [DecidableEq ι] [DecidableEq κ] in
theorem canceller_eq_some {a : OidStep ι κ} (h : a.canceller = some k) :
    (∃ requestId, a = .cancels k requestId) ∨ a = .cancelLocks k ∨ a = .looks k ∨ a = .reads k ∨
      a = .compares k ∨ a = .cancelUnlocks k ∨ a = .forwards k := by
  cases a <;> simp_all [OidStep.canceller]

theorem cancel_exec {a : OidStep ι κ} (h : a.canceller ≠ some k) :
    (s.exec a).cancel k = s.cancel k := by
  cases a with
  | cancels k' | cancelLocks k' | looks k' | reads k' | compares k' | cancelUnlocks k'
  | forwards k' =>
    have hne : k ≠ k' := fun heq => h (congrArg some heq.symm)
    simp only [exec]
    repeat' split
    all_goals first
      | rfl
      | exact Function.update_of_ne hne ..
  | _ =>
    simp only [exec]
    repeat' split
    all_goals rfl

/-- A cancellation is handed on after it has let go of the lock, if it found its request. -/
theorem forwarding_exec {a : OidStep ι κ} {requestId : ℕ} (ha : s.Enabled a)
    (h : (s.exec a).cancel k = .forwarding requestId) :
    s.cancel k = .forwarding requestId ∨ s.cancel k = .unlocking requestId true := by
  by_cases hmine : a.canceller = some k
  · rcases canceller_eq_some hmine with ⟨_, rfl⟩ | rfl | rfl | rfl | rfl | rfl | rfl
    case inr.inr.inr.inr.inr.inl =>
      obtain ⟨id, found, hpos⟩ := ha
      cases found <;> simp [exec, hpos, moveCancel] at h
      exact .inr (h ▸ hpos)
    all_goals
      revert h
      simp only [exec]
      repeat' split
      all_goals simp_all [moveCancel, fail]
  · exact .inl ((cancel_exec hmine).symm.trans h)

/-- What is handed on is what was to be. -/
theorem cancelled_of_exec {a : OidStep ι κ} {requestId : ℕ}
    (h : requestId ∈ (s.exec a).cancelled) :
    requestId ∈ s.cancelled ∨ ∃ k, s.cancel k = .forwarding requestId := by
  cases a with
  | forwards k =>
    cases hpos : s.cancel k <;> simp only [exec, hpos] at h
    case forwarding id =>
      rcases List.mem_append.1 h with h | h
      · exact .inl h
      · exact .inr ⟨k, by rw [hpos, List.mem_singleton.1 h]⟩
    all_goals exact .inl h
  | _ =>
    revert h
    simp only [exec]
    repeat' split
    all_goals exact .inl

end Cancellations

section Runs

variable [DecidableEq κ]

omit [DecidableEq ι] [DecidableEq κ] in
theorem inv_init : (init : OidFilter ι κ).Inv PassThrough.init where
  fault := rfl
  sent := rfl
  answers := rfl
  kept _ := trivial
  apart i _ _ hi := absurd rfl hi
  apartClones _ _ _ _ hc := by cases hc
  inside _ hin := by cases hin
  cancelInside _ hin := by cases hin
  pending _ hc := by cases hc
  looked _ := trivial
  owned _ hc := absurd rfl hc
  asked _ hr := absurd rfl hr

theorem Inv.step {a : OidStep ι κ} (h : s.Inv p) (ha : s.Enabled a) :
    (s.exec a).Inv (p.exec a) := by
  cases a with
  | arrives i r request => exact h.arrives ha
  | cloneFails i status => exact h.cloneFails ha
  | clones i c requestId => exact h.clones ha
  | prepares i => exact h.prepares ha
  | publishes i => exact h.publishes ha
  | sends i => exact h.sends ha
  | completesBelow i status data => exact h.completesBelow ha
  | enters i => exact h.enters ha
  | locks i => exact h.locks ha
  | clears i => exact h.clears ha
  | unlocks i => exact h.unlocks ha
  | copies i => exact h.copies ha
  | nulls i => exact h.nulls ha
  | frees i => exact h.frees ha
  | completes i => exact h.completes ha
  | cancels k requestId => exact h.cancels ha
  | cancelLocks k => exact h.cancelLocks ha
  | looks k => exact h.looks ha
  | reads k => exact h.reads ha
  | compares k => exact h.compares ha
  | cancelUnlocks k => exact h.cancelUnlocks ha
  | forwards k => exact h.forwards ha

/-- Where the request is with the filter. -/
def withFilter (s : OidFilter ι κ) (r : ℕ) : ℕ := if (s.original r).isSome then 1 else 0

/-- How often the request was answered, and whether it still has to be. -/
def charged (s : OidFilter ι κ) (r : ℕ) : ℕ :=
  s.answers.countP (·.original = r) + s.withFilter r

omit [DecidableEq ι] [DecidableEq κ] in
theorem charged_of_same {r : ℕ} (hanswers : s'.answers = s.answers)
    (horiginal : (s'.original r).isSome = (s.original r).isSome) : s'.charged r = s.charged r := by
  rw [charged, withFilter, hanswers, horiginal, charged, withFilter]

omit [DecidableEq ι] [DecidableEq κ] in
/-- A request that is answered is no longer with the filter. -/
theorem charged_answer {r status : ℕ} {request request' : OidRequest}
    (h : s.original r = some request) (r' : ℕ) :
    (s.answer r status request').charged r' = s.charged r' := by
  rw [charged, charged, answer, List.countP_append, List.countP_singleton]
  rcases eq_or_ne r' r with rfl | hne
  · simp [withFilter, setOriginal, h]
  · simp [withFilter, setOriginal, hne, hne.symm]

theorem Inv.charged_exec {a : OidStep ι κ} (h : s.Inv p) (ha : s.Enabled a) (r : ℕ) :
    (s.exec a).charged r = s.charged r + if a.hands r then 1 else 0 := by
  cases a with
  | arrives i r' request =>
    obtain ⟨hpos, hfree⟩ := ha
    simp only [exec, hpos, OidStep.hands, charged, withFilter, move, setOriginal]
    rcases eq_or_ne r r' with rfl | hne
    · simp [hfree]
    · simp [hne, hne.symm]
  | cloneFails i status =>
    obtain ⟨r', hpos⟩ := ha
    have hk := h.kept i
    rw [hpos] at hk
    simp only [exec, hpos, hk.2]
    exact charged_answer hk.2 r
  | completes i =>
    obtain ⟨status, r', hpos⟩ := ha
    have hk := h.kept i
    rw [hpos] at hk
    simp only [exec, hpos, hk.2.2]
    exact charged_answer hk.2.2 r
  | copies i =>
    obtain ⟨c, status, r', hpos⟩ := ha
    have hk := h.kept i
    rw [hpos] at hk
    simp only [exec, hpos, hk.2.2.1, hk.2.2.2]
    refine charged_of_same rfl ?_
    rcases eq_or_ne r r' with rfl | hne
    · simp [move, setOriginal, hk.2.2.1]
    · simp [move, setOriginal, hne]
  | clones | prepares | publishes | sends | completesBelow | enters | locks | clears | unlocks
  | nulls | frees | cancels | cancelLocks | looks | reads | compares | cancelUnlocks | forwards =>
    refine charged_of_same ?_ ?_ <;>
    · simp only [exec]
      repeat' split
      all_goals rfl

/-- In the course of the steps a cancellation of the number had the lock, and found a request that
has it, which was with the filter. -/
def Decided (tr : List (OidStep ι κ)) (requestId : ℕ) : Prop :=
  ∃ tr₀ tr₁ s₀ k r request, tr = tr₀ ++ tr₁ ∧ Sys.Run (Sys.Guarded Enabled exec) init tr₀ s₀ ∧
    s₀.lock = some (.inr k) ∧ s₀.cancel k = .unlocking requestId true ∧
    s₀.original r = some request ∧ request.requestId = requestId

omit [DecidableEq ι] [DecidableEq κ] in
theorem Inv.found {k : κ} {requestId : ℕ} (h : s.Inv p)
    (hk : s.cancel k = .unlocking requestId true) :
    s.lock = some (.inr k) ∧
      ∃ r request, s.original r = some request ∧ request.requestId = requestId := by
  have hlooked := h.looked k
  rw [hk] at hlooked
  obtain ⟨i, c, hi, hid⟩ := hlooked
  exact ⟨h.cancelInside k (by rw [hk]; rfl), _, _, (h.pendable_kept hi).1, hid⟩

theorem Decided.append {tr : List (OidStep ι κ)} {requestId : ℕ} (h : Decided tr requestId)
    (a : OidStep ι κ) : Decided (tr ++ [a]) requestId := by
  obtain ⟨tr₀, tr₁, s₀, k, r, request, rfl, h⟩ := h
  exact ⟨tr₀, tr₁ ++ [a], s₀, k, r, request, List.append_assoc .., h⟩

/-- After any steps that can be taken, memory has what is known of every request. -/
theorem inv_run {tr : List (OidStep ι κ)} (h : Sys.Run (Sys.Guarded Enabled exec) init tr s) :
    s.Inv (PassThrough.after tr) := by
  refine h.induct (I := fun tr s => s.Inv (PassThrough.after tr)) inv_init ?_
  rintro tr s a s' - hinv ⟨ha, rfl⟩
  have hafter : PassThrough.after (tr ++ [a]) = (PassThrough.after tr).exec a := by
    simp [PassThrough.after]
  exact hafter ▸ hinv.step ha

theorem charged_run {tr : List (OidStep ι κ)} (h : Sys.Run (Sys.Guarded Enabled exec) init tr s)
    (r : ℕ) : s.charged r = tr.countP (OidStep.hands r) := by
  refine h.induct (I := fun tr s => s.charged r = tr.countP (OidStep.hands r)) rfl ?_
  rintro tr s a s' hrun hcount ⟨ha, rfl⟩
  rw [(inv_run hrun).charged_exec ha, hcount, List.countP_append, List.countP_singleton]

/-- A cancellation that is handed on was decided on before. -/
theorem decided_run {tr : List (OidStep ι κ)} (h : Sys.Run (Sys.Guarded Enabled exec) init tr s) :
    (∀ k requestId, s.cancel k = .forwarding requestId → Decided tr requestId) ∧
      ∀ requestId ∈ s.cancelled, Decided tr requestId := by
  refine h.induct (I := fun tr s =>
    (∀ k requestId, s.cancel k = .forwarding requestId → Decided tr requestId) ∧
      ∀ requestId ∈ s.cancelled, Decided tr requestId)
    ⟨fun _ _ hk => (by cases hk), fun _ hmem => absurd hmem List.not_mem_nil⟩ ?_
  rintro tr s a s' hrun ⟨hforwarding, hcancelled⟩ ⟨ha, rfl⟩
  refine ⟨fun k requestId hk => ?_, fun requestId hmem => ?_⟩
  · rcases forwarding_exec ha hk with hk | hk
    · exact (hforwarding k requestId hk).append a
    · obtain ⟨hlock, r, request, hr, hid⟩ := (inv_run hrun).found hk
      exact ⟨tr, [a], s, k, r, request, rfl, hrun, hlock, hk, hr, hid⟩
  · rcases cancelled_of_exec hmem with hmem | ⟨k, hk⟩
    · exact (hcancelled requestId hmem).append a
    · exact (hforwarding k requestId hk).append a

/-- A query goes down, and is cancelled. -/
def goesDown : List (OidStep Unit Unit) :=
  [.arrives () 7 ⟨.queryInformation, 5, ⟨0, 0, 0, 0⟩⟩, .clones () 3 0, .prepares (), .publishes (),
    .sends (), .cancels () 5, .cancelLocks ()]

/-- The query comes back meanwhile. -/
def comesBack : List (OidStep Unit Unit) :=
  [.looks (), .reads (), .compares (), .completesBelow () 0 ⟨0, 0, 4, 0⟩, .enters (),
    .cancelUnlocks (), .forwards (), .locks (), .clears (), .unlocks (), .copies (), .nulls (),
    .frees (), .completes ()]

def passage : List (OidStep Unit Unit) := goesDown ++ comesBack

theorem passage_run :
    Sys.Run (Sys.Guarded Enabled exec) init passage (passage.foldl exec init) := by
  have hallowed : Sys.Allowed Enabled exec init passage := by
    refine ⟨⟨rfl, rfl⟩, ⟨⟨_, rfl⟩, rfl⟩, ⟨_, _, rfl⟩, ⟨_, rfl⟩, ⟨_, rfl⟩, rfl, ⟨⟨_, rfl⟩, rfl⟩,
      ⟨_, rfl⟩, ⟨_, _, rfl⟩, ⟨_, _, rfl⟩, ⟨_, rfl⟩, ⟨_, _, rfl⟩, ⟨_, _, rfl⟩, ⟨_, rfl⟩,
      ⟨⟨_, _, _, rfl⟩, rfl⟩, ⟨_, _, _, rfl⟩, ⟨_, _, _, rfl⟩, ⟨_, _, _, rfl⟩, ⟨_, _, _, rfl⟩,
      ⟨_, _, _, rfl⟩, ⟨_, _, rfl⟩, trivial⟩
  exact hallowed.run

end Runs

end OidFilter

end LcxlNetLoader
