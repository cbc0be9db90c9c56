import LcxlNetLoader.Requests
import LcxlNetLoader.Proofs.Device
import LcxlNetLoader.Proofs.ServerTable

/-!
# Status and effect of a request

`Answers` is `Tells` for the one module a request finds. The five requests that only look for a
module and change it come down to it (`tells_withFilter`); what is left is what each one does to a
module, of which only adding and deleting a server are more than an assignment.
-/

namespace LcxlNetLoader

open LcxlFilter

variable {past : ServerPtr → Bool} {now : ℤ} {d : Driver} {irp : Irp} {r : ModuleRequest}

theorem LcxlFilter.SameModule.refl (f : LcxlFilter) : f.SameModule f :=
  ⟨rfl, rfl, rfl, rfl, rfl, rfl, rfl, rfl⟩

namespace Tells

/-- The status tells the truth about what became of one module. -/
structure Answers (past : ServerPtr → Bool) (irp : Irp) (r : ModuleRequest) (f : LcxlFilter)
    (res : LcxlFilter × Reply) : Prop where
  granted : res.2.status = .success → r.InForce past irp res.1
  unchanged : res.2.status ≠ .success → f.SameModule res.1

theorem untouched {status : NtStatus} (h : status ≠ .success) :
    Tells past d irp r (d, .ofStatus status) :=
  ⟨fun h' => absurd h' h, fun _ _ => .refl _⟩

theorem not_of_size (hs : irp.inputBufferLength ≠ r.size) {d' : Driver} :
    ¬ Tells past d irp r (d', .ofStatus .success) :=
  fun h => hs (h.granted rfl).1

theorem withFilter_none {missing : NtStatus} {found : LcxlFilter → LcxlFilter × Reply}
    (hf : findFilter d irp.miniportNetLuid = none) :
    withFilter d irp missing found = (d.lock.unlock, .ofStatus missing) := by
  have hf' : findFilter d.lock irp.miniportNetLuid = none := hf
  unfold withFilter
  simp only [hf']

theorem withFilter_some {missing : NtStatus} {found : LcxlFilter → LcxlFilter × Reply}
    {p : FilterPtr} (hf : findFilter d irp.miniportNetLuid = some p) :
    withFilter d irp missing found =
      ((d.lock.setFilter p (found (d.filter p)).1).unlock, (found (d.filter p)).2) := by
  have hf' : findFilter d.lock irp.miniportNetLuid = some p := hf
  unfold withFilter
  simp only [hf']
  rfl

/-- A request that finds its module tells the truth where it does of that module, and one that does
not has to fail. -/
theorem tells_withFilter {missing : NtStatus} {found : LcxlFilter → LcxlFilter × Reply}
    (hs : irp.inputBufferLength = r.size) :
    Tells past d irp r (withFilter d irp missing found) ↔
      (findFilter d irp.miniportNetLuid = none → missing ≠ .success) ∧
      ∀ p, findFilter d irp.miniportNetLuid = some p →
        Answers past irp r (d.filter p) (found (d.filter p)) := by
  cases hf : findFilter d irp.miniportNetLuid with
  | none =>
    rw [withFilter_none hf]
    refine ⟨fun h => ⟨fun _ hm => ?_, fun p hp => by cases hp⟩, fun h => ?_⟩
    · obtain ⟨-, p, hp, -⟩ := h.granted hm
      rw [hf] at hp
      cases hp
    · exact ⟨fun hm => absurd hm (h.1 rfl), fun _ p => .refl _⟩
  | some p =>
    rw [withFilter_some hf]
    have hp : ((d.lock.setFilter p (found (d.filter p)).1).unlock).filter p
        = (found (d.filter p)).1 := Function.update_self ..
    refine ⟨fun h => ⟨fun hn => (by cases hn), fun q hq => ?_⟩, fun h => ?_⟩
    · cases hq
      refine ⟨fun hr => ?_, fun hr => ?_⟩
      · obtain ⟨-, q, hq, hq'⟩ := h.granted hr
        rw [hf] at hq
        cases hq
        rwa [hp] at hq'
      · have := h.unchanged hr p
        rwa [hp] at this
    · have ha := h.2 p rfl
      refine ⟨fun hr => ⟨hs, p, hf, ?_⟩, fun hr q => ?_⟩
      · rw [hp]
        exact ha.granted hr
      · by_cases hq : q = p
        · subst hq
          rw [hp]
          exact ha.unchanged hr
        · have : ((d.lock.setFilter p (found (d.filter p)).1).unlock).filter q = d.filter q :=
            Function.update_of_ne hq ..
          rw [this]
          exact .refl _

/-- A request of the wrong size has to fail. -/
theorem tells_ofSize {size : ℕ} {otherwise : NtStatus} {act : Driver × Reply}
    (hs : r.size = size) :
    Tells past d irp r (ofSize d irp size otherwise act) ↔
      (irp.inputBufferLength ≠ size → otherwise ≠ .success) ∧
      (irp.inputBufferLength = size → Tells past d irp r act) := by
  subst hs
  unfold ofSize
  split_ifs with h
  · exact ⟨fun ht => ⟨fun hn => absurd h hn, fun _ => ht⟩, fun ht => ht.2 h⟩
  · refine ⟨fun ht => ⟨fun _ ho => ?_, fun h' => absurd h' h⟩, fun ht => untouched (ht.1 h)⟩
    subst ho
    exact not_of_size h ht

theorem answers_success {f f' : LcxlFilter} :
    Answers past irp r f (f', .ofStatus .success) ↔ r.InForce past irp f' :=
  ⟨fun h => h.granted rfl, fun h => ⟨fun _ => h, fun h' => absurd rfl h'⟩⟩

theorem answers_failed {f : LcxlFilter} {status : NtStatus} (h : status ≠ .success) :
    Answers past irp r f (f, .ofStatus status) :=
  ⟨fun h' => absurd h' h, fun _ => .refl _⟩

/-- A request that never fails tells the truth only where it had nothing to fail of. -/
theorem tells_silent {size : ℕ} {found : LcxlFilter → LcxlFilter × Reply} (hs : r.size = size)
    (h : ∀ f, Answers past irp r f (found f)) :
    Tells past d irp r (ofSize d irp size .success <| withFilter d irp .success found) ↔
      irp.inputBufferLength = size ∧ (findFilter d irp.miniportNetLuid).isSome := by
  rw [tells_ofSize hs]
  constructor
  · intro ht
    have hlen : irp.inputBufferLength = size := not_not.1 fun hn => ht.1 hn rfl
    have hfound := ((tells_withFilter (hlen.trans hs.symm)).1 (ht.2 hlen)).1
    exact ⟨hlen, Option.isSome_iff_ne_none.2 fun hn => hfound hn rfl⟩
  · rintro ⟨hlen, hfound⟩
    refine ⟨fun hn => absurd hlen hn, fun _ => ?_⟩
    refine (tells_withFilter (hlen.trans hs.symm)).2 ⟨fun hn => ?_, fun p _ => h _⟩
    rw [hn] at hfound
    cases hfound

end Tells

theorem inForce_update (m : ServerPtr → ServerInfoListEntry) (q q' : ServerPtr)
    (server : LcxlServer) :
    (Function.update m q { m q with info := server } q').info = server
      ↔ q' = q ∨ (m q').info = server := by
  by_cases h : q' = q
  · subst h
    simp
  · simp [h]

/-- The server a request to add one asks for is in force where it stays. -/
theorem routerAddServer_inForce (t : ServerTable) (server : LcxlServer) :
    (∃ q ∈ (routerAddServer past now t server).lst.list
        ++ (routerAddServer past now t server).lst.toBeAddList,
      ((routerAddServer past now t server).mem q).info = server) ↔ AddStays past t server := by
  cases hq : findServer past t server.macAddr with
  | none =>
    rw [routerAddServer_of_none hq]
    refine ⟨fun _ q h => ?_, fun _ => ⟨t.next, LcxlList.staying_of_added t.lst t.next, ?_⟩⟩
    · rw [hq] at h
      cases h
    · simp [unlockServerList]
  | some q =>
    have hst : (routerAddServer past now t server).lst.list
        ++ (routerAddServer past now t server).lst.toBeAddList = t.staying := by
      rw [routerAddServer_of_some hq]
      exact LcxlList.staying_of_unlock rfl
    have hmem : (routerAddServer past now t server).mem
        = Function.update t.mem q { t.mem q with info := server } := by
      rw [routerAddServer_of_some hq]
      rfl
    rw [hst, hmem]
    simp only [inForce_update]
    refine ⟨fun h q₁ h₁ => ?_, fun h => h q hq⟩
    rw [hq] at h₁
    cases h₁
    exact h

theorem findServer_eq_none (past : ServerPtr → Bool) (t : ServerTable) (mac : IfPhysicalAddress) :
    findServer past t mac = none ↔ ∀ q ∈ t.lst.list, ¬ sameMac past t mac q :=
  List.find?_eq_none

theorem sameMac_congr {t t' : ServerTable} {q : ServerPtr} {mac : IfPhysicalAddress}
    (h : (t'.mem q).info.macAddr = (t.mem q).info.macAddr) :
    sameMac past t' mac q = sameMac past t mac q := by
  unfold sameMac
  rw [h]

/-- Where the server found was not deleted, what is left is what other servers of its address
there are. -/
theorem routerDelServer_live {t : ServerTable} {mac : IfPhysicalAddress} {p : ServerPtr}
    (hp : findServer past t mac = some p) (hd : ¬ has (t.mem p).info.status ssDeleted) :
    (∀ q ∈ (routerDelServer past t mac).1.lst.list,
        sameMac past (routerDelServer past t mac).1 mac q →
          has ((routerDelServer past t mac).1.mem q).info.status ssDeleted) ↔
      DelsOnly past t mac := by
  rw [routerDelServer_of_live hp hd]
  set t' := (lockServerList t).modify p fun s =>
    { s with info := { s.info with status := s.info.status ||| ssDeleted } } with ht'
  have hself : has ((decRefListEntry t' p).mem p).info.status ssDeleted := by
    rw [RefOnly.dec.info, ht', ServerTable.modify_mem_same, has_or]
    exact Bool.or_eq_true_iff.2 (.inr rfl)
  have hother : ∀ q, q ≠ p → ((decRefListEntry t' p).mem q).info = (t.mem q).info := by
    intro q hq
    rw [RefOnly.dec.info, ht', ServerTable.modify_mem_of_ne hq]
    rfl
  have hlist : ∀ q, q ≠ p → (q ∈ (decRefListEntry t' p).lst.list ↔ q ∈ t.lst.list) :=
    fun q hq => mem_decRefListEntry hq
  refine ⟨fun h p₁ h₁ _ q hq hqp hm => ?_, fun h q hq hm => ?_⟩
  · rw [hp] at h₁
    cases h₁
    have := h q ((hlist q hqp).2 hq)
      (by rw [sameMac_congr (congrArg LcxlServer.macAddr (hother q hqp))]; exact hm)
    rwa [hother q hqp] at this
  · by_cases hqp : q = p
    · subst hqp
      exact hself
    · rw [sameMac_congr (congrArg LcxlServer.macAddr (hother q hqp))] at hm
      rw [hother q hqp]
      exact h p hp hd q ((hlist q hqp).1 hq) hqp hm

/-- What a request to delete a server says of its module's list. -/
theorem routerDelServer_answers (f : LcxlFilter) :
    Tells.Answers past irp .delServer f
        (f.setServers (routerDelServer past f.module.serverList (irp.ifPhysicalAddress 8)).1,
          .ofStatus (if (routerDelServer past f.module.serverList (irp.ifPhysicalAddress 8)).2
            then .fileDeleted else .success)) ↔
      DelsOnly past f.module.serverList (irp.ifPhysicalAddress 8) := by
  set t := f.module.serverList with ht
  cases hp : findServer past t (irp.ifPhysicalAddress 8) with
  | none =>
    rw [routerDelServer_of_none hp]
    refine ⟨fun _ p h => ?_, fun _ => Tells.answers_success.2 fun q hq hm => ?_⟩
    · rw [hp] at h
      cases h
    · exact absurd hm ((findServer_eq_none past t _).1 hp q hq)
  | some p =>
    by_cases hd : has (t.mem p).info.status ssDeleted
    · rw [routerDelServer_of_deleted hp hd]
      refine ⟨fun _ q h hn => ?_, fun _ => ⟨fun h => ?_, fun _ => ?_⟩⟩
      · rw [hp] at h
        cases h
        exact absurd hd hn
      · cases h
      · exact ⟨rfl, rfl, rfl, rfl, rfl, rfl, rfl, rfl⟩
    · have hr : (routerDelServer past t (irp.ifPhysicalAddress 8)).2 = false := by
        rw [routerDelServer_of_live hp hd]
      rw [hr, ← routerDelServer_live hp hd]
      exact Tells.answers_success

theorem setRole_answers (f : LcxlFilter) :
    Tells.Answers past irp .setRole f
      (if irp.int 8 ≠ f.module.lcxlRole then
        if (irp.int 8 = roleRouter ∨ irp.int 8 = roleServer) ∧ f.module.lcxlRole ≠ roleUnknown then
          (f, .ofStatus .invalidParameter)
        else ({ f with module := { f.module with lcxlRole := irp.int 8 } }, .ofStatus .success)
      else (f, .ofStatus .success)) := by
  split_ifs with h0 h1
  · exact Tells.answers_failed (by decide)
  · exact Tells.answers_success.2 rfl
  · exact Tells.answers_success.2 (not_not.1 h0).symm

/-- What the driver does with a request that comes with a file object. -/
def ModuleRequest.handle (past : ServerPtr → Bool) (now : ℤ) (d : Driver) (irp : Irp) :
    ModuleRequest → Driver × Reply
  | .setRole => LcxlNetLoader.setRole d irp
  | .setVirtualAddr => LcxlNetLoader.setVirtualAddr d irp
  | .addServer => LcxlNetLoader.addServer past now d irp
  | .delServer => LcxlNetLoader.delServer past d irp
  | .setServerCheck => LcxlNetLoader.setServerCheck d irp
  | .setRoutingAlgorithm => LcxlNetLoader.setRoutingAlgorithm d irp

theorem filterDeviceIoControl_eq_handle (hfile : irp.fileObject)
    (h : irp.ioControlCode = r.ioControlCode) :
    filterDeviceIoControl past now d irp = r.handle past now d irp := by
  unfold filterDeviceIoControl
  rw [h, hfile]
  cases r <;> rfl

theorem handle_tells :
    Tells past d irp r (r.handle past now d irp) ↔ r.Honest past d irp := by
  cases r with
  | setRole =>
    refine (Tells.tells_ofSize rfl).trans ⟨fun h => not_not.1 fun hn => h.1 hn rfl, fun h => ?_⟩
    refine ⟨fun hn => absurd h hn, fun hs => (Tells.tells_withFilter hs).2 ⟨fun _ => ?_, ?_⟩⟩
    · decide
    · exact fun p _ => setRole_answers _
  | setVirtualAddr =>
    refine (Tells.tells_ofSize rfl).trans ⟨fun _ => trivial, fun _ => ⟨fun _ => by decide, ?_⟩⟩
    refine fun hs => (Tells.tells_withFilter hs).2 ⟨fun _ => by decide, fun p _ => ?_⟩
    exact Tells.answers_success.2 rfl
  | addServer =>
    refine (Tells.tells_ofSize rfl).trans ⟨fun h hs p hp => ?_, fun h => ⟨fun _ => by decide, ?_⟩⟩
    · have := ((Tells.tells_withFilter hs).1 (h.2 hs)).2 p hp
      exact (routerAddServer_inForce _ _).1 (Tells.answers_success.1 this)
    · refine fun hs => (Tells.tells_withFilter hs).2 ⟨fun _ => by decide, fun p hp => ?_⟩
      exact Tells.answers_success.2 ((routerAddServer_inForce _ _).2 (h hs p hp))
  | delServer =>
    refine (Tells.tells_ofSize rfl).trans ⟨fun h hs p hp => ?_, fun h => ⟨fun _ => by decide, ?_⟩⟩
    · exact (routerDelServer_answers _).1 (((Tells.tells_withFilter hs).1 (h.2 hs)).2 p hp)
    · refine fun hs => (Tells.tells_withFilter hs).2 ⟨fun _ => by decide, fun p hp => ?_⟩
      exact (routerDelServer_answers _).2 (h hs p hp)
  | setServerCheck => exact Tells.tells_silent rfl fun f => Tells.answers_success.2 rfl
  | setRoutingAlgorithm => exact Tells.tells_silent rfl fun f => Tells.answers_success.2 rfl

/-- The status of a request that changes a module tells the truth exactly where it is reported to:
the requests to set the role, the check of the servers and the algorithm accept a wrong size, and
the latter two an unknown module. -/
theorem status_tells_iff (past : ServerPtr → Bool) (now : ℤ) (d : Driver) (irp : Irp)
    (r : ModuleRequest) (h : irp.ioControlCode = r.ioControlCode) :
    Tells past d irp r (filterDeviceIoControl past now d irp) ↔ Reported past d irp r := by
  cases hfile : irp.fileObject with
  | false =>
    have hfail : filterDeviceIoControl past now d irp = (d, .ofStatus .unsuccessful) := by
      unfold filterDeviceIoControl
      rw [hfile]
      rfl
    rw [hfail]
    refine ⟨fun _ hf => ?_, fun _ => Tells.untouched (by decide)⟩
    rw [hfile] at hf
    cases hf
  | true =>
    rw [filterDeviceIoControl_eq_handle hfile h, handle_tells]
    exact ⟨fun h _ => h, fun h => h hfile⟩

/-- A role of zero is set in the one module there is. -/
theorem status_tells_iff_role :
    (findFilter (Device.idle.exec (.add none 0)).driver 1).isSome ∧
    Tells (fun _ => false) (Device.idle.exec (.add none 0)).driver
      (Device.about ioctlSetRole sizeofAppSetRole) .setRole
      (filterDeviceIoControl (fun _ => false) 0 (Device.idle.exec (.add none 0)).driver
        (Device.about ioctlSetRole sizeofAppSetRole)) :=
  ⟨by decide, (status_tells_iff _ _ _ _ .setRole rfl).2 fun _ => rfl⟩

/-- With no module there, the algorithm is said to be set in one. -/
theorem not_tells_of_unknown_module :
    ¬ ∀ (past : ServerPtr → Bool) (now : ℤ) (d : Driver) (irp : Irp) (r : ModuleRequest),
      irp.ioControlCode = r.ioControlCode →
        Tells past d irp r (filterDeviceIoControl past now d irp) := by
  intro h
  have := (h (fun _ => false) 0 Device.idle.driver
    (Device.about ioctlRouterSetRoutingAlgorithm sizeofAppSetRoutingAlgorithm)
    .setRoutingAlgorithm rfl).granted (by decide +kernel)
  obtain ⟨-, p, hp, -⟩ := this
  exact absurd hp (by simp [findFilter, Device.idle, initLcxlList, getLcxlListHead])

end LcxlNetLoader
