import LcxlNetLoader.Shutdown

/-!
# When stopping the service deadlocks

While `PostSerRun` is in the critical section no thread is, and the one whose event is set cannot
time out any more. So the thread waited for never comes to the critical section after that, and
the only question is where it is when the wait begins.
-/

namespace LcxlNetLoader

namespace PostSerRunPosition

variable {ι : Type*}

/-- `PostSerRun` is in the critical section. -/
def Inside : PostSerRunPosition ι → Prop
  | .looking _ | .signalled _ _ | .waiting _ _ => True
  | _ => False

/-- The module whose thread is being stopped. -/
def stopping : PostSerRunPosition ι → Option ι
  | .signalled i _ | .waiting i _ => some i
  | _ => none

end PostSerRunPosition

namespace Service

variable {ι : Type*} [DecidableEq ι] {s : Service ι} {a : ServiceStep ι}

omit [DecidableEq ι] in
structure Inv (s : Service ι) : Prop where
  inside : s.post.Inside → s.owner = some .postSerRun
  checking : ∀ i, s.thread i = .checking → s.owner = some (.thread i)
  signalled : ∀ i, s.post.stopping = some i → s.exitEvent i = true

omit [DecidableEq ι] in
theorem inv_init (modules : List ι) (started : ι → Bool) : Inv (init modules started) := by
  refine ⟨fun hi => hi.elim, fun i hi => ?_, fun i hi => by cases hi⟩
  simp only [init] at hi
  split_ifs at hi

/-- Moving a thread outside the critical section. -/
theorem Inv.moveThread (h : Inv s) {i : ι} {position : VipCheckPosition}
    (hp : position ≠ .checking) : Inv (s.moveThread i position) := by
  refine ⟨h.inside, fun j hj => ?_, h.signalled⟩
  by_cases hji : j = i
  · subst hji
    simp only [Service.moveThread, Function.update_self] at hj
    exact absurd hj hp
  · simp only [Service.moveThread, Function.update_of_ne hji] at hj
    exact h.checking j hj

omit [DecidableEq ι] in
/-- While `PostSerRun` is in the critical section, it goes on in it. -/
theorem Inv.advance (h : Inv s) {post : PostSerRunPosition ι} {thread : ι → VipCheckPosition}
    {exitEvent : ι → Bool} (hi : s.post.Inside)
    (ht : ∀ i, thread i = .checking → s.owner = some (.thread i))
    (he : ∀ i, post.stopping = some i → exitEvent i = true) :
    Inv ⟨s.owner, thread, exitEvent, post⟩ :=
  ⟨fun _ => h.inside hi, ht, he⟩

theorem Inv.exec (h : Inv s) (he : s.Enabled a) : Inv (s.exec a) := by
  have hin := h.inside
  have hsig := h.signalled
  cases a with
  | threadEnters i =>
    refine ⟨fun hi => ?_, fun j hj => ?_, hsig⟩
    · exact absurd (he.2.symm.trans (hin hi)) (by simp)
    · by_cases hji : j = i
      · subst hji
        rfl
      · simp only [Service.exec, Service.moveThread, Function.update_of_ne hji] at hj
        exact absurd (he.2.symm.trans (h.checking j hj)) (by simp)
  | threadLeaves i =>
    have hown := h.checking i he
    refine ⟨fun hi => ?_, fun j hj => ?_, hsig⟩
    · exact absurd (hown.symm.trans (hin hi)) (by simp)
    · by_cases hji : j = i
      · subst hji
        simp [Service.exec, Service.moveThread] at hj
      · simp only [Service.exec, Service.moveThread, Function.update_of_ne hji] at hj
        have := hown.symm.trans (h.checking j hj)
        simp only [Option.some.injEq, Owner.thread.injEq] at this
        exact absurd this.symm hji
  | threadTimesOut i => exact h.moveThread (by decide)
  | threadEnds i => exact h.moveThread (by decide)
  | postEnters =>
    obtain ⟨⟨left, hpost⟩, hown⟩ := he
    refine ⟨fun _ => ?_, fun j hj => ?_, fun j hj => ?_⟩ <;>
      simp only [Service.exec, hpost] at *
    · exact absurd (hown.symm.trans (h.checking j hj)) (by simp)
    · cases hj
  | postSkips =>
    obtain ⟨i, left, hpost, -⟩ := he
    rw [Service.exec, hpost]
    exact h.advance (by rw [hpost]; trivial) h.checking fun j hj => by cases hj
  | postSignals =>
    obtain ⟨i, left, hpost, -⟩ := he
    rw [Service.exec, hpost]
    refine h.advance (by rw [hpost]; trivial) h.checking fun j hj => ?_
    cases hj
    exact Function.update_self ..
  | postWaits =>
    obtain ⟨i, left, hpost⟩ := he
    rw [Service.exec, hpost]
    refine h.advance (by rw [hpost]; trivial) h.checking fun j hj => hsig j ?_
    rw [hpost]
    exact hj
  | postJoins =>
    obtain ⟨i, left, hpost, -⟩ := he
    have hm := (h.moveThread (i := i) (show VipCheckPosition.absent ≠ .checking by decide)).checking
    rw [Service.exec, hpost]
    exact h.advance (by rw [hpost]; trivial) hm fun j hj => by cases hj
  | postReturns =>
    have hown := hin (by rw [show s.post = .looking [] from he]; trivial)
    refine ⟨fun hi => hi.elim, fun j hj => ?_, fun j hj => by cases hj⟩
    exact absurd (hown.symm.trans (h.checking j hj)) (by simp)

/-- The thread waited for, its event being set, does not come to the critical section any more: a
deadlock is there when the wait begins or not at all. -/
theorem noDeadlock_iff (h : Inv s) (hd : ¬ s.Deadlocked) (he : s.Enabled a) :
    s.NoDeadlock a ↔ s.WaitsForWaiting a := by
  cases a with
  | postWaits =>
    obtain ⟨i, left, hpost⟩ := he
    have hown := h.inside (by rw [hpost]; trivial)
    have hexec : s.exec .postWaits = { s with post := .waiting i left } := by
      simp only [Service.exec, hpost]
    unfold NoDeadlock
    rw [hexec]
    constructor
    · intro hn j left' hj hentering
      rw [hpost] at hj
      cases hj
      exact hn ⟨i, left, rfl, hentering, hown⟩
    · rintro hw ⟨j, left', hj, hentering, -⟩
      cases hj
      exact hw i left hpost hentering
  | threadTimesOut i =>
    refine ⟨fun _ => trivial, fun _ => ?_⟩
    rintro ⟨j, left, hpost, hentering, hown⟩
    by_cases hji : j = i
    · subst hji
      exact absurd (he.2.symm.trans (h.signalled j (by rw [show s.post = _ from hpost]; rfl)))
        (by decide)
    · simp only [Service.exec, Service.moveThread, Function.update_of_ne hji] at hentering
      exact hd ⟨j, left, hpost, hentering, hown⟩
  | threadEnters i | threadLeaves i =>
    refine ⟨fun _ => trivial, fun _ => ?_⟩
    rintro ⟨j, left, hpost, hentering, hown⟩
    cases hown
  | threadEnds i =>
    refine ⟨fun _ => trivial, fun _ => ?_⟩
    rintro ⟨j, left, hpost, hentering, hown⟩
    by_cases hji : j = i
    · subst hji
      simp [Service.exec, Service.moveThread] at hentering
    · simp only [Service.exec, Service.moveThread, Function.update_of_ne hji] at hentering
      exact hd ⟨j, left, hpost, hentering, hown⟩
  | postEnters =>
    obtain ⟨⟨left, hpost⟩, -⟩ := he
    refine ⟨fun _ => trivial, fun _ => ?_⟩
    rintro ⟨j, left', hj, -⟩
    simp [Service.exec, hpost] at hj
  | postSkips | postSignals | postJoins =>
    obtain ⟨i, left, hpost, -⟩ := he
    refine ⟨fun _ => trivial, fun _ => ?_⟩
    rintro ⟨j, left', hj, -⟩
    simp [Service.exec, hpost] at hj
  | postReturns =>
    refine ⟨fun _ => trivial, fun _ => ?_⟩
    rintro ⟨j, left, hj, -⟩
    cases hj

/-- Over every run, whatever modules there are, no state is a deadlock exactly where `PostSerRun`
begins no wait for a thread that is past a time-out, or its start, and short of the critical
section. -/
theorem shutdown_deadlocks_iff (modules : List ι) (started : ι → Bool) (tr : List (ServiceStep ι))
    (h : Sys.Allowed Enabled exec (init modules started) tr) :
    Sys.Allowed NoDeadlock exec (init modules started) tr ↔
      Sys.Allowed WaitsForWaiting exec (init modules started) tr := by
  refine Sys.allowed_iff_of_inv (I := fun s => Inv s ∧ ¬ s.Deadlocked)
    (fun s a hs he hn => ⟨hs.1.exec he, hn⟩) (fun s a hs he => noDeadlock_iff hs.1 hs.2 he)
    ⟨inv_init modules started, ?_⟩ h
  rintro ⟨i, left, hpost, -⟩
  cases hpost

/-- The thread of module 0 has checked, and is in its wait when its event is set. -/
def stopping : List (ServiceStep ℕ) :=
  [.threadEnters 0, .threadLeaves 0, .postEnters, .postSignals, .postWaits, .threadEnds 0,
    .postJoins, .postReturns]

theorem shutdown_deadlocks_iff_stopping :
    Sys.Allowed NoDeadlock exec (init [0] fun _ => true) stopping := by
  have hen : Sys.Allowed Enabled exec (init [0] fun _ => true) stopping :=
    ⟨⟨rfl, rfl⟩, rfl, ⟨⟨_, rfl⟩, rfl⟩, ⟨_, _, rfl, by decide⟩, ⟨_, _, rfl⟩, ⟨rfl, rfl⟩,
      ⟨_, _, rfl, rfl⟩, rfl, trivial⟩
  refine (shutdown_deadlocks_iff [0] _ stopping hen).2 ?_
  refine ⟨trivial, trivial, trivial, trivial, fun i left hi => ?_, trivial, trivial, trivial,
    trivial⟩
  cases hi
  decide

/-- The thread times out, and the service is stopped before it has come to the critical section. -/
theorem not_noDeadlock_of_timeout : ¬ ∀ (modules : List ℕ) (started : ℕ → Bool)
    (tr : List (ServiceStep ℕ)), Sys.Allowed Enabled exec (init modules started) tr →
      Sys.Allowed NoDeadlock exec (init modules started) tr := by
  intro h
  have hen : Sys.Allowed Enabled exec (init [0] fun _ => true)
      [.threadEnters 0, .threadLeaves 0, .threadTimesOut 0, .postEnters, .postSignals,
        .postWaits] :=
    ⟨⟨rfl, rfl⟩, rfl, ⟨rfl, rfl⟩, ⟨⟨_, rfl⟩, rfl⟩, ⟨_, _, rfl, by decide⟩, ⟨_, _, rfl⟩, trivial⟩
  exact (h _ _ _ hen).2.2.2.2.2.1 ⟨0, [], rfl, rfl, rfl⟩

end Service

end LcxlNetLoader
