import Mathlib.Logic.Function.Basic
import LcxlNetLoader.Lib.Run

/-!
# Stopping the service

`PostSerRun` takes the configuration's critical section and stops the thread of every router module
under it, one after the other; each `RouterVipCheckThread` takes the critical section once a second
and waits for its exit event in between, having let go of it. A `CCSLocker` holds the critical
section to the end of its scope: of the body of the loop in the thread, of the whole function in
`PostSerRun`.
-/

namespace LcxlNetLoader

/-- Where a module's `RouterVipCheckThread` is. -/
inductive VipCheckPosition
  /-- The module has no `exit_event`. -/
  | absent
  /-- It is about to enter the critical section, or waits to. -/
  | entering
  | checking
  /-- In `WaitForSingleObject`, for a second at most. -/
  | waiting
  | ended
deriving DecidableEq

/-- Where `PostSerRun` is, and the modules it has still to look at. -/
inductive PostSerRunPosition (ι : Type*)
  | entering (left : List ι)
  | looking (left : List ι)
  /-- The exit event of the module is set. -/
  | signalled (i : ι) (left : List ι)
  /-- In `WaitForSingleObject`, until the module's thread ends. -/
  | waiting (i : ι) (left : List ι)
  | returned
deriving DecidableEq

/-- Who is in the critical section. -/
inductive Owner (ι : Type*)
  | thread (i : ι)
  | postSerRun
deriving DecidableEq

inductive ServiceStep (ι : Type*)
  | threadEnters (i : ι)
  | threadLeaves (i : ι)
  /-- A second passes without the exit event being set. -/
  | threadTimesOut (i : ι)
  | threadEnds (i : ι)
  | postEnters
  /-- A module without an exit event is passed over. -/
  | postSkips
  | postSignals
  | postWaits
  /-- The thread has ended, and its handle and its event are closed. -/
  | postJoins
  | postReturns

structure Service (ι : Type*) where
  owner : Option (Owner ι)
  thread : ι → VipCheckPosition
  exitEvent : ι → Bool
  post : PostSerRunPosition ι

namespace Service

variable {ι : Type*}

/-- The service with the threads of some modules just started. -/
def init (modules : List ι) (started : ι → Bool) : Service ι where
  owner := none
  thread i := if started i then .entering else .absent
  exitEvent _ := false
  post := .entering modules

variable [DecidableEq ι]

def moveThread (s : Service ι) (i : ι) (position : VipCheckPosition) : Service ι :=
  { s with thread := Function.update s.thread i position }

def exec (s : Service ι) : ServiceStep ι → Service ι
  | .threadEnters i => { s.moveThread i .checking with owner := some (.thread i) }
  | .threadLeaves i => { s.moveThread i .waiting with owner := none }
  | .threadTimesOut i => s.moveThread i .entering
  | .threadEnds i => s.moveThread i .ended
  | .postEnters => match s.post with
    | .entering left => { s with owner := some .postSerRun, post := .looking left }
    | _ => s
  | .postSkips => match s.post with
    | .looking (_ :: left) => { s with post := .looking left }
    | _ => s
  | .postSignals => match s.post with
    | .looking (i :: left) =>
      { s with exitEvent := Function.update s.exitEvent i true, post := .signalled i left }
    | _ => s
  | .postWaits => match s.post with
    | .signalled i left => { s with post := .waiting i left }
    | _ => s
  | .postJoins => match s.post with
    | .waiting i left =>
      { s.moveThread i .absent with
        exitEvent := Function.update s.exitEvent i false, post := .looking left }
    | _ => s
  | .postReturns => { s with owner := none, post := .returned }

omit [DecidableEq ι] in
/-- The critical section is entered only while nobody is in it, and a wait ends only with what it
is for. -/
def Enabled (s : Service ι) : ServiceStep ι → Prop
  | .threadEnters i => s.thread i = .entering ∧ s.owner = none
  | .threadLeaves i => s.thread i = .checking
  | .threadTimesOut i => s.thread i = .waiting ∧ s.exitEvent i = false
  | .threadEnds i => s.thread i = .waiting ∧ s.exitEvent i = true
  | .postEnters => (∃ left, s.post = .entering left) ∧ s.owner = none
  | .postSkips => ∃ i left, s.post = .looking (i :: left) ∧ s.thread i = .absent
  | .postSignals => ∃ i left, s.post = .looking (i :: left) ∧ s.thread i ≠ .absent
  | .postWaits => ∃ i left, s.post = .signalled i left
  | .postJoins => ∃ i left, s.post = .waiting i left ∧ s.thread i = .ended
  | .postReturns => s.post = .looking []

omit [DecidableEq ι] in
/-- `PostSerRun` waits for a thread that waits for the critical section `PostSerRun` is in. -/
def Deadlocked (s : Service ι) : Prop :=
  ∃ i left, s.post = .waiting i left ∧ s.thread i = .entering ∧ s.owner = some .postSerRun

/-- The step does not lead to a deadlock. -/
def NoDeadlock (s : Service ι) (a : ServiceStep ι) : Prop := ¬ (s.exec a).Deadlocked

omit [DecidableEq ι] in
/-- `PostSerRun` begins to wait for a thread only when that one has still to come out of its own
wait, or has ended: it is not past a time-out, or its start, and short of the critical section. -/
def WaitsForWaiting (s : Service ι) : ServiceStep ι → Prop
  | .postWaits => ∀ i left, s.post = .signalled i left → s.thread i ≠ .entering
  | _ => True

end Service

end LcxlNetLoader
