import Mathlib.Logic.Function.Basic
import LcxlNetLoader.Lib.Run

/-!
# OID requests

`FilterOidRequest` sends a clone of each request to the layer below, and `FilterOidRequestComplete`
completes the request with what the clone comes back with. `FilterCancelOidRequest` hands a
cancellation on if it is of the request whose clone the filter remembers as pending. The three run
on any threads and at any time, a step at a time: each step here is one access to what they share.
A clone that is freed and a request that has been completed are not there any more.
-/

namespace LcxlNetLoader

/-- `NDIS_REQUEST_TYPE`, of which a filter tells these apart. -/
inductive RequestType
  | method
  | setInformation
  | queryInformation
  | queryStatistics
  | other
deriving DecidableEq, Inhabited

/-- What comes back in the `DATA` of a request. A request has the numbers of its type. -/
structure OidData where
  outputBufferLength : UInt32
  bytesRead : UInt32
  bytesWritten : UInt32
  bytesNeeded : UInt32
deriving DecidableEq, Inhabited

structure OidRequest where
  requestType : RequestType
  requestId : ℕ
  data : OidData
deriving DecidableEq, Inhabited

/-- The request with what is copied of the one that was returned. -/
def OidRequest.copied (original request : OidRequest) : OidRequest :=
  match request.requestType with
  | .method => { original with
      data := { original.data with
        outputBufferLength := request.data.outputBufferLength
        bytesRead := request.data.bytesRead
        bytesNeeded := request.data.bytesNeeded
        bytesWritten := request.data.bytesWritten } }
  | .setInformation => { original with
      data := { original.data with
        bytesRead := request.data.bytesRead
        bytesNeeded := request.data.bytesNeeded } }
  | .queryInformation | .queryStatistics | .other => { original with
      data := { original.data with
        bytesWritten := request.data.bytesWritten
        bytesNeeded := request.data.bytesNeeded } }

/-- A request that has not been submitted. -/
def OidRequest.cleared (request : OidRequest) : OidRequest :=
  match request.requestType with
  | .method => { request with
      data := { request.data with bytesRead := 0, bytesNeeded := 0, bytesWritten := 0 } }
  | .setInformation => { request with
      data := { request.data with bytesRead := 0, bytesNeeded := 0 } }
  | .queryInformation | .queryStatistics | .other => { request with
      data := { request.data with bytesWritten := 0, bytesNeeded := 0 } }

/-- A clone, and the request that its `SourceReserved` points to. -/
structure OidClone where
  request : OidRequest
  context : Option ℕ

/-- An answer to a request: `NdisFOidRequestComplete`, or a status of `FilterOidRequest` other than
`NDIS_STATUS_PENDING`. -/
structure OidAnswer where
  original : ℕ
  status : ℕ
  request : OidRequest

/-- Where a request is, from `FilterOidRequest` to the end of `FilterOidRequestComplete`. What the
routines hold of it are pointers. -/
inductive OidPosition
  | absent
  | cloning (original : ℕ)
  | preparing (original clone : ℕ)
  | publishing (clone : ℕ)
  | sending (clone : ℕ)
  /-- With the layer below. -/
  | below (clone : ℕ)
  | entering (clone status : ℕ)
  | locking (clone status original : ℕ)
  | clearing (clone status original : ℕ)
  | unlocking (clone status original : ℕ)
  | copying (clone status original : ℕ)
  | nulling (clone status original : ℕ)
  | freeing (clone status original : ℕ)
  | completing (status original : ℕ)

/-- Where a `FilterCancelOidRequest` is. -/
inductive CancelPosition
  | absent
  | locking (requestId : ℕ)
  | looking (requestId : ℕ)
  | reading (requestId clone : ℕ)
  | comparing (requestId original : ℕ)
  | unlocking (requestId : ℕ) (found : Bool)
  | forwarding (requestId : ℕ)

/-- The steps of a request and of a cancellation, each with what comes from outside: the request,
the clone that is allocated, and what the layer below completes it with. -/
inductive OidStep (ι κ : Type*)
  | arrives (i : ι) (original : ℕ) (request : OidRequest)
  | cloneFails (i : ι) (status : ℕ)
  | clones (i : ι) (clone requestId : ℕ)
  | prepares (i : ι)
  | publishes (i : ι)
  | sends (i : ι)
  /-- `NdisFOidRequest` returns the status, or the layer below completes the clone with it. -/
  | completesBelow (i : ι) (status : ℕ) (data : OidData)
  | enters (i : ι)
  | locks (i : ι)
  | clears (i : ι)
  | unlocks (i : ι)
  | copies (i : ι)
  | nulls (i : ι)
  | frees (i : ι)
  | completes (i : ι)
  | cancels (k : κ) (requestId : ℕ)
  | cancelLocks (k : κ)
  | looks (k : κ)
  | reads (k : κ)
  | compares (k : κ)
  | cancelUnlocks (k : κ)
  | forwards (k : κ)

/-- The requests that are with a filter, the clones there are, and what the filter has called below
and above it. -/
structure OidFilter (ι κ : Type*) where
  lock : Option (ι ⊕ κ)
  pendingOidRequest : Option ℕ
  clone : ℕ → Option OidClone
  original : ℕ → Option OidRequest
  position : ι → OidPosition
  cancel : κ → CancelPosition
  sent : List OidRequest
  cancelled : List ℕ
  answers : List OidAnswer
  /-- Something was used that was not there. -/
  fault : Bool

namespace OidFilter

variable {ι κ : Type*}

def init : OidFilter ι κ where
  lock := none
  pendingOidRequest := none
  clone _ := none
  original _ := none
  position _ := .absent
  cancel _ := .absent
  sent := []
  cancelled := []
  answers := []
  fault := false

def fail (s : OidFilter ι κ) : OidFilter ι κ := { s with fault := true }

variable [DecidableEq ι] [DecidableEq κ]

def move (s : OidFilter ι κ) (i : ι) (position : OidPosition) : OidFilter ι κ :=
  { s with position := Function.update s.position i position }

def moveCancel (s : OidFilter ι κ) (k : κ) (position : CancelPosition) : OidFilter ι κ :=
  { s with cancel := Function.update s.cancel k position }

def setClone (s : OidFilter ι κ) (c : ℕ) (clone : Option OidClone) : OidFilter ι κ :=
  { s with clone := Function.update s.clone c clone }

def setOriginal (s : OidFilter ι κ) (r : ℕ) (request : Option OidRequest) : OidFilter ι κ :=
  { s with original := Function.update s.original r request }

def answer (s : OidFilter ι κ) (r status : ℕ) (request : OidRequest) : OidFilter ι κ :=
  { s.setOriginal r none with answers := s.answers ++ [⟨r, status, request⟩] }

def exec (s : OidFilter ι κ) : OidStep ι κ → OidFilter ι κ
  | .arrives i r request => match s.position i with
    | .absent => (s.setOriginal r (some request)).move i (.cloning r)
    | _ => s
  | .cloneFails i status => match s.position i with
    | .cloning r => match s.original r with
      | some request => (s.answer r status request.cleared).move i .absent
      | none => s.fail
    | _ => s
  | .clones i c requestId => match s.position i with
    | .cloning r => match s.original r with
      | some request =>
        (s.setClone c (some ⟨{ request with requestId }, none⟩)).move i (.preparing r c)
      | none => s.fail
    | _ => s
  | .prepares i => match s.position i with
    | .preparing r c => match s.clone c, s.original r with
      | some clone, some request =>
        (s.setClone c (some ⟨{ clone.request with requestId := request.requestId }, some r⟩)).move i
          (.publishing c)
      | _, _ => s.fail
    | _ => s
  | .publishes i => match s.position i with
    | .publishing c => { s.move i (.sending c) with pendingOidRequest := some c }
    | _ => s
  | .sends i => match s.position i with
    | .sending c => match s.clone c with
      | some clone => { s.move i (.below c) with sent := s.sent ++ [clone.request] }
      | none => s.fail
    | _ => s
  | .completesBelow i status data => match s.position i with
    | .below c => match s.clone c with
      | some clone =>
        (s.setClone c (some ⟨{ clone.request with data }, clone.context⟩)).move i
          (.entering c status)
      | none => s.fail
    | _ => s
  | .enters i => match s.position i with
    | .entering c status => match s.clone c with
      | some ⟨_, some r⟩ => s.move i (.locking c status r)
      -- `filterInternalRequestComplete` takes the clone for a request of the filter's own.
      | _ => s.fail
    | _ => s
  | .locks i => match s.position i with
    | .locking c status r => { s.move i (.clearing c status r) with lock := some (.inl i) }
    | _ => s
  | .clears i => match s.position i with
    | .clearing c status r =>
      { s.move i (.unlocking c status r) with pendingOidRequest := none }
    | _ => s
  | .unlocks i => match s.position i with
    | .unlocking c status r => { s.move i (.copying c status r) with lock := none }
    | _ => s
  | .copies i => match s.position i with
    | .copying c status r => match s.clone c, s.original r with
      | some clone, some request =>
        (s.setOriginal r (some (request.copied clone.request))).move i (.nulling c status r)
      | _, _ => s.fail
    | _ => s
  | .nulls i => match s.position i with
    | .nulling c status r => match s.clone c with
      | some clone => (s.setClone c (some ⟨clone.request, none⟩)).move i (.freeing c status r)
      | none => s.fail
    | _ => s
  | .frees i => match s.position i with
    | .freeing c status r => match s.clone c with
      | some _ => (s.setClone c none).move i (.completing status r)
      | none => s.fail
    | _ => s
  | .completes i => match s.position i with
    | .completing status r => match s.original r with
      | some request => (s.answer r status request).move i .absent
      | none => s.fail
    | _ => s
  | .cancels k requestId => match s.cancel k with
    | .absent => s.moveCancel k (.locking requestId)
    | _ => s
  | .cancelLocks k => match s.cancel k with
    | .locking requestId => { s.moveCancel k (.looking requestId) with lock := some (.inr k) }
    | _ => s
  | .looks k => match s.cancel k with
    | .looking requestId => match s.pendingOidRequest with
      | some c => s.moveCancel k (.reading requestId c)
      | none => s.moveCancel k (.unlocking requestId false)
    | _ => s
  | .reads k => match s.cancel k with
    | .reading requestId c => match s.clone c with
      | some ⟨_, some r⟩ => s.moveCancel k (.comparing requestId r)
      | some ⟨_, none⟩ => s.moveCancel k (.unlocking requestId false)
      | none => s.fail
    | _ => s
  | .compares k => match s.cancel k with
    | .comparing requestId r => match s.original r with
      | some request => s.moveCancel k (.unlocking requestId (request.requestId = requestId))
      | none => s.fail
    | _ => s
  | .cancelUnlocks k => match s.cancel k with
    | .unlocking requestId found =>
      { s.moveCancel k (if found then .forwarding requestId else .absent) with lock := none }
    | _ => s
  | .forwards k => match s.cancel k with
    | .forwarding requestId =>
      { s.moveCancel k .absent with cancelled := s.cancelled ++ [requestId] }
    | _ => s

omit [DecidableEq ι] [DecidableEq κ] in
/-- A request is handed in that is not with the filter, a clone is allocated where none is, the lock
is taken when nobody has it, and every routine goes on where it is. -/
def Enabled (s : OidFilter ι κ) : OidStep ι κ → Prop
  | .arrives i r _ => s.position i = .absent ∧ s.original r = none
  | .cloneFails i _ => ∃ r, s.position i = .cloning r
  | .clones i c _ => (∃ r, s.position i = .cloning r) ∧ s.clone c = none
  | .prepares i => ∃ r c, s.position i = .preparing r c
  | .publishes i => ∃ c, s.position i = .publishing c
  | .sends i => ∃ c, s.position i = .sending c
  | .completesBelow i _ _ => ∃ c, s.position i = .below c
  | .enters i => ∃ c status, s.position i = .entering c status
  | .locks i => (∃ c status r, s.position i = .locking c status r) ∧ s.lock = none
  | .clears i => ∃ c status r, s.position i = .clearing c status r
  | .unlocks i => ∃ c status r, s.position i = .unlocking c status r
  | .copies i => ∃ c status r, s.position i = .copying c status r
  | .nulls i => ∃ c status r, s.position i = .nulling c status r
  | .frees i => ∃ c status r, s.position i = .freeing c status r
  | .completes i => ∃ status r, s.position i = .completing status r
  | .cancels k _ => s.cancel k = .absent
  | .cancelLocks k => (∃ requestId, s.cancel k = .locking requestId) ∧ s.lock = none
  | .looks k => ∃ requestId, s.cancel k = .looking requestId
  | .reads k => ∃ requestId c, s.cancel k = .reading requestId c
  | .compares k => ∃ requestId r, s.cancel k = .comparing requestId r
  | .cancelUnlocks k => ∃ requestId found, s.cancel k = .unlocking requestId found
  | .forwards k => ∃ requestId, s.cancel k = .forwarding requestId

omit [DecidableEq ι] [DecidableEq κ] in
/-- A request is handed in only when none is with the filter. -/
def OneAtATime (s : OidFilter ι κ) : OidStep ι κ → Prop
  | .arrives _ _ _ => ∀ i, s.position i = .absent
  | _ => True

end OidFilter

/-- The request is handed in. -/
def OidStep.hands {ι κ : Type*} (r : ℕ) : OidStep ι κ → Bool
  | .arrives _ original _ => original = r
  | _ => false

/-! ## What it is for -/

/-- The request with the numbers that its type has. `DATA` is another structure for each type: in
one that sets there is nowhere to write to, in one that queries nothing to be read. -/
def OidRequest.own (request : OidRequest) : OidRequest :=
  match request.requestType with
  | .method => request
  | .setInformation => { request with
      data := { request.data with outputBufferLength := 0, bytesWritten := 0 } }
  | .queryInformation | .queryStatistics | .other => { request with
      data := { request.data with outputBufferLength := 0, bytesRead := 0 } }

/-- The answer, as the layer above reads it. -/
def OidAnswer.own (answer : OidAnswer) : OidAnswer := { answer with request := answer.request.own }

/-- A filter that is not there: what is known of the requests that are with it, and what the layers
below and above it have seen. -/
structure PassThrough (ι : Type*) where
  original : ι → ℕ
  request : ι → OidRequest
  status : ι → ℕ
  data : ι → OidData
  sent : List OidRequest
  answers : List OidAnswer

namespace PassThrough

variable {ι κ : Type*} [DecidableEq ι]

/-- A request goes down itself: the layer below writes its numbers and completes it with a status.
One that could not be sent is answered with the status for which it could not, and no bytes. -/
def exec (p : PassThrough ι) : OidStep ι κ → PassThrough ι
  | .arrives i r request => { p with
      original := Function.update p.original i r
      request := Function.update p.request i request }
  | .cloneFails i status => { p with
      answers := p.answers ++ [⟨p.original i, status, { p.request i with
        data := ⟨(p.request i).data.outputBufferLength, 0, 0, 0⟩ }⟩] }
  | .sends i => { p with sent := p.sent ++ [p.request i] }
  | .completesBelow i status data => { p with
      status := Function.update p.status i status
      data := Function.update p.data i data }
  | .completes i => { p with
      answers := p.answers ++ [⟨p.original i, p.status i, { p.request i with data := p.data i }⟩] }
  | _ => p

def init : PassThrough ι where
  original _ := 0
  request _ := default
  status _ := 0
  data _ := default
  sent := []
  answers := []

/-- What is known after the steps. -/
def after (tr : List (OidStep ι κ)) : PassThrough ι := tr.foldl exec init

end PassThrough

end LcxlNetLoader
