import LcxlNetLoader.Device
import LcxlNetLoader.Proofs.Select

/-!
# The locks of the control interface

Every request but one gives back each lock it takes, and lets no change wait on a list it lets go
(`Restored`); the one that does not is a deletion that finds its module. Runs in which that one
does not come up hold each list as often as the other parties do.
-/

namespace LcxlNetLoader

/-- A list is locked as often as before, and settled if it was. -/
structure LcxlList.Restored {α : Type*} (l l' : LcxlList α) : Prop where
  lockCount : l'.lockCount = l.lockCount
  settled : l.Settled → l'.Settled

namespace LcxlList

variable {α : Type*} {l l' l'' : LcxlList α} {e : α}

theorem Restored.refl (l : LcxlList α) : l.Restored l := ⟨rfl, id⟩

theorem Restored.trans (h : l.Restored l') (h' : l'.Restored l'') : l.Restored l'' :=
  ⟨h'.1.trans h.1, h'.2 ∘ h.2⟩

variable [DecidableEq α]

theorem settled_unlockLcxlList (l : LcxlList α) : (unlockLcxlList l).Settled := by
  intro h
  rw [unlockLcxlList_lockCount] at h
  have h1 : l.lockCount = 1 := by simpa using UInt8.sub_eq_iff_eq_add.1 h
  rw [unlockLcxlList_of_last h1, applyToBe_eq]
  exact ⟨rfl, rfl⟩

/-- What is done under a lock is undone of it by the unlock. -/
theorem Restored.of_locked (h : l'.lockCount = l.lockCount + 1) :
    l.Restored (unlockLcxlList l') :=
  ⟨by rw [unlockLcxlList_lockCount, h, UInt8.add_sub_cancel], fun _ => settled_unlockLcxlList l'⟩

omit [DecidableEq α] in
theorem settled_add (h : l.Settled) (e : α) : (addEntrytoLcxlList l e).Settled := by
  unfold addEntrytoLcxlList
  split_ifs with h0
  · intro h1
    simp only at h1
    simp [h1] at h0
  · exact h

theorem settled_remove (h : l.Settled) (e : α) : (removeEntryfromLcxlList l e).Settled := by
  unfold removeEntryfromLcxlList
  split_ifs with h0
  · intro h1
    simp only at h1
    simp [h1] at h0
  · exact h

end LcxlList

open LcxlList

theorem routerAddServer_restored (past : ServerPtr → Bool) (now : ℤ) (t : ServerTable)
    (server : LcxlServer) : t.lst.Restored (routerAddServer past now t server).lst := by
  unfold routerAddServer
  refine Restored.of_locked ?_
  simp only
  split
  · exact addEntrytoLcxlList_lockCount _ _
  · rfl

/-- The deletion never lets the list go. -/
theorem routerDelServer_lockCount (past : ServerPtr → Bool) (t : ServerTable)
    (mac : IfPhysicalAddress) :
    (routerDelServer past t mac).1.lst.lockCount = t.lst.lockCount + 1 := by
  unfold routerDelServer
  simp only
  split
  · rfl
  · split_ifs
    · rfl
    · unfold decRefListEntry
      simp only
      split_ifs
      · exact removeEntryfromLcxlList_lockCount _ _
      · rfl

namespace Driver

variable {d d' d'' : Driver} {irp : Irp}

def Restored (d d' : Driver) : Prop := ∀ l, (d.lockList l).Restored (d'.lockList l)

theorem Restored.refl (d : Driver) : d.Restored d := fun _ => .refl _

theorem Restored.trans (h : d.Restored d') (h' : d'.Restored d'') : d.Restored d'' :=
  fun l => (h l).trans (h' l)

theorem lockList_setFilter_same (p : FilterPtr) (f : LcxlFilter) :
    (d.setFilter p f).lockList (some p) = f.module.serverList.lst := by
  simp [lockList, setFilter]

theorem lockList_setFilter_of_ne {p : FilterPtr} {l : ListId} (h : l ≠ some p) (f : LcxlFilter) :
    (d.setFilter p f).lockList l = d.lockList l := by
  cases l with
  | none => rfl
  | some q =>
    have hq : q ≠ p := fun hq => h (congrArg some hq)
    simp [lockList, setFilter, hq]

theorem restored_setFilter {p : FilterPtr} {f : LcxlFilter}
    (h : (d.filter p).module.serverList.lst.Restored f.module.serverList.lst) :
    d.Restored (d.setFilter p f) := by
  intro l
  by_cases hl : l = some p
  · subst hl
    rw [lockList_setFilter_same]
    exact h
  · rw [lockList_setFilter_of_ne hl]
    exact .refl _

/-- Between the lock and the unlock of `g_filter_list`. -/
theorem restored_locked (h : d.lock.Restored d') : d.Restored d'.unlock := by
  intro l
  cases l with
  | none => exact Restored.of_locked (h none).lockCount
  | some p => exact h (some p)

theorem withFilter_restored {missing : NtStatus} {found : LcxlFilter → LcxlFilter × Reply}
    (h : ∀ f : LcxlFilter, f.module.serverList.lst.Restored (found f).1.module.serverList.lst) :
    d.Restored (withFilter d irp missing found).1 := by
  unfold withFilter
  refine restored_locked ?_
  split
  · exact restored_setFilter (h _)
  · exact .refl _

theorem ofSize_restored {size : ℕ} {otherwise : NtStatus} {act : Driver × Reply}
    (h : irp.inputBufferLength = size → d.Restored act.1) :
    d.Restored (ofSize d irp size otherwise act).1 := by
  unfold ofSize
  split_ifs with hs
  · exact h hs
  · exact .refl d

theorem moduleListLoop_restored : ∀ (ps : List FilterPtr) (d : Driver),
    d.Restored (moduleListLoop ps d).1
  | [], d => .refl d
  | _ :: ps, _ =>
    (restored_setFilter (Restored.of_locked rfl)).trans (moduleListLoop_restored ps _)

theorem getModuleList_restored : d.Restored (getModuleList d irp).1 := by
  unfold getModuleList
  simp only
  split_ifs
  · exact restored_locked (moduleListLoop_restored _ _)
  · exact restored_locked (.refl _)

/-- A deletion that finds its module leaves the module's list locked once more. -/
theorem delServer_lockCount (past : ServerPtr → Bool) {p : FilterPtr}
    (hs : irp.inputBufferLength = sizeofAppDelServer)
    (hf : findFilter d irp.miniportNetLuid = some p) :
    ((delServer past d irp).1.lockList (some p)).lockCount
      = (d.lockList (some p)).lockCount + 1 := by
  have hf' : findFilter d.lock irp.miniportNetLuid = some p := hf
  unfold delServer ofSize withFilter
  rw [if_pos hs]
  simp only [hf']
  exact (congrArg (fun l : LcxlList ℕ => l.lockCount) (lockList_setFilter_same _ _)).trans
    (routerDelServer_lockCount past _ _)

theorem delServer_restored (past : ServerPtr → Bool)
    (hf : irp.inputBufferLength = sizeofAppDelServer → findFilter d irp.miniportNetLuid = none) :
    d.Restored (delServer past d irp).1 := by
  unfold delServer
  refine ofSize_restored fun hs => ?_
  have hf' : findFilter d.lock irp.miniportNetLuid = none := hf hs
  unfold withFilter
  simp only [hf']
  exact restored_locked (.refl _)

theorem restored_ite {c : Prop} [Decidable c] {r r' : Driver × Reply} (h : c → d.Restored r.1)
    (h' : ¬ c → d.Restored r'.1) : d.Restored (if c then r else r').1 := by
  split_ifs with hc
  · exact h hc
  · exact h' hc

/-- Every request but one restores the lists. -/
theorem ioctl_restored (past : ServerPtr → Bool) (now : ℤ) (h : ¬ LeavesLocked d irp) :
    d.Restored (filterDeviceIoControl past now d irp).1 := by
  unfold filterDeviceIoControl
  refine restored_ite (fun _ => .refl d) fun h0 => ?_
  refine restored_ite (fun _ => ?_) fun _ => restored_ite (fun _ => ?_) fun _ =>
    restored_ite (fun _ => getModuleList_restored) fun _ => restored_ite (fun _ => ?_) fun _ =>
    restored_ite (fun _ => ?_) fun _ => restored_ite (fun _ => ?_) fun _ =>
    restored_ite (fun hdel => ?_) fun _ => restored_ite (fun _ => ?_) fun _ =>
    restored_ite (fun _ => ?_) fun _ => .refl d
  · exact ofSize_restored fun _ => withFilter_restored fun f => .refl _
  · refine ofSize_restored fun _ => withFilter_restored fun f => ?_
    simp only
    split_ifs <;> exact .refl _
  · exact ofSize_restored fun _ => withFilter_restored fun f => .refl _
  · refine ofSize_restored fun _ => withFilter_restored fun f => ?_
    simp only
    split_ifs <;> exact Restored.of_locked rfl
  · exact ofSize_restored fun _ => withFilter_restored fun f => routerAddServer_restored _ _ _ _
  · refine delServer_restored past fun hs => ?_
    by_contra hf
    exact h ⟨not_not.1 h0, hdel, hs, Option.isSome_iff_ne_none.2 hf⟩
  · exact ofSize_restored fun _ => withFilter_restored fun f => .refl _
  · exact ofSize_restored fun _ => withFilter_restored fun f => .refl _

theorem sameLocks_iff (past : ServerPtr → Bool) (now : ℤ) :
    d.SameLocks (filterDeviceIoControl past now d irp).1 ↔ ¬ LeavesLocked d irp := by
  refine ⟨fun h hl => ?_, fun h l => (ioctl_restored past now h l).lockCount⟩
  obtain ⟨h0, hcode, hs, hf⟩ := hl
  obtain ⟨p, hp⟩ := Option.isSome_iff_exists.1 hf
  have hdel : filterDeviceIoControl past now d irp = delServer past d irp := by
    unfold filterDeviceIoControl
    rw [hcode, h0]
    rfl
  have := h (some p)
  rw [hdel, delServer_lockCount past hs hp] at this
  simp at this

end Driver

theorem Driver.lockList_onList (d : Driver) (g : LcxlList ℕ → LcxlList ℕ) (l l' : ListId) :
    (d.onList g l).lockList l' = if l' = l then g (d.lockList l) else d.lockList l' := by
  split_ifs with h
  · subst h
    cases l' with
    | none => rfl
    | some p => exact Driver.lockList_setFilter_same _ _
  · cases l with
    | none =>
      cases l' with
      | none => simp at h
      | some q => rfl
    | some p => exact Driver.lockList_setFilter_of_ne h _

namespace Device

variable {s s' : Device} {e : DeviceEvent}

theorem Quiet.restored {l l' : LcxlList ℕ} {held : ℕ} (h : Quiet l held) (hr : l.Restored l') :
    Quiet l' held := by
  have hc := hr.lockCount.trans h.lockCount
  refine ⟨hc, fun h0 => hr.settled (fun _ => h.settled h0) ?_⟩
  rw [hc, h0]
  rfl

theorem Quiet.lock {l : LcxlList ℕ} {held : ℕ} (h : Quiet l held) :
    Quiet (lockLcxlList l) (held + 1) := by
  refine ⟨?_, fun h0 => by omega⟩
  rw [lockLcxlList_lockCount, h.lockCount, UInt8.ofNat_add]
  rfl

theorem Quiet.unlock {l : LcxlList ℕ} {held : ℕ} (h : Quiet l held) (h0 : 0 < held) :
    Quiet (unlockLcxlList l) (held - 1) := by
  have hc : (unlockLcxlList l).lockCount = UInt8.ofNat (held - 1) := by
    obtain ⟨n, rfl⟩ : ∃ n, held = n + 1 := ⟨held - 1, by omega⟩
    rw [unlockLcxlList_lockCount, h.lockCount, UInt8.ofNat_add]
    exact UInt8.add_sub_cancel _ _
  refine ⟨hc, fun h1 => settled_unlockLcxlList l ?_⟩
  rw [hc, h1]
  rfl

theorem Quiet.add {l : LcxlList ℕ} {held : ℕ} (h : Quiet l held) (e : ℕ) :
    Quiet (addEntrytoLcxlList l e) held := by
  refine ⟨(addEntrytoLcxlList_lockCount l e).trans h.lockCount, fun h0 => ?_⟩
  refine settled_add (fun _ => h.settled h0) e ?_
  rw [addEntrytoLcxlList_lockCount, h.lockCount, h0]
  rfl

theorem Quiet.remove {l : LcxlList ℕ} {held : ℕ} (h : Quiet l held) (e : ℕ) :
    Quiet (removeEntryfromLcxlList l e) held := by
  refine ⟨(removeEntryfromLcxlList_lockCount l e).trans h.lockCount, fun h0 => ?_⟩
  refine settled_remove (fun _ => h.settled h0) e ?_
  rw [removeEntryfromLcxlList_lockCount, h.lockCount, h0]
  rfl

/-- A call on one list, and what it does to how often that list is held. -/
theorem quiet_onList {g : LcxlList ℕ → LcxlList ℕ} {l : ListId} {n : ℕ}
    (h : ∀ l, Quiet (s.driver.lockList l) (s.held l)) (hg : Quiet (g (s.driver.lockList l)) n)
    (l' : ListId) :
    Quiet ((s.driver.onList g l).lockList l') (Function.update s.held l n l') := by
  rw [Driver.lockList_onList]
  split_ifs with hl
  · rw [hl, Function.update_self]
    exact hg
  · rw [Function.update_of_ne hl]
    exact h l'

theorem quiet_step (h : ∀ l, Quiet (s.driver.lockList l) (s.held l)) (hs : Step s e s')
    (l : ListId) : Quiet (s'.driver.lockList l) (s'.held l) := by
  obtain ⟨ha, rfl⟩ := hs
  cases e with
  | ioctl past now irp => exact (h l).restored (Driver.ioctl_restored past now ha l)
  | lock l' => exact quiet_onList h (h l').lock l
  | unlock l' => exact quiet_onList h ((h l').unlock ha) l
  | add l' e =>
    have := quiet_onList (g := (addEntrytoLcxlList · e)) h ((h l').add e) l
    rwa [Function.update_eq_self] at this
  | remove l' e =>
    have := quiet_onList (g := (removeEntryfromLcxlList · e)) h ((h l').remove e) l
    rwa [Function.update_eq_self] at this

/-- A request leaves every list locked as often as it found it exactly when it is not a deletion
that finds its module. And as long as no such deletion is made, every list stays locked as often as
the other parties hold it, and no change waits on one that none of them holds. -/
theorem locks_balanced (d : Driver) :
    (∀ (past : ServerPtr → Bool) (now : ℤ) (irp : Irp),
      d.SameLocks (filterDeviceIoControl past now d irp).1 ↔ ¬ LeavesLocked d irp) ∧
    ∀ (held : ListId → ℕ) (tr : List DeviceEvent) (s : Device),
      (∀ l, Quiet (d.lockList l) (held l)) → Sys.Run Step ⟨d, held⟩ tr s →
      ∀ l, Quiet (s.driver.lockList l) (s.held l) := by
  refine ⟨fun past now irp => Driver.sameLocks_iff past now, fun held tr s h0 hr => ?_⟩
  exact hr.preserves (I := fun s => ∀ l, Quiet (s.driver.lockList l) (s.held l))
    (fun h hs => quiet_step h hs) h0

/-- A driver that has no modules yet, the first one's address being that of a router. -/
def idle : Device := ⟨⟨initLcxlList, fun _ => Sample.router⟩, fun _ => 0⟩

/-- A request about the router, of that code and input size, its other bytes zero. -/
def about (ioControlCode : UInt32) (size : ℕ) : Irp :=
  ⟨true, ioControlCode, fun i => if i = 0 then 1 else 0, size, 0⟩

/-- The router is attached, and a server added while another party holds its list. -/
def adding : List DeviceEvent :=
  [.add none 0, .lock (some 0),
    .ioctl (fun _ => false) 0 (about ioctlRouterAddServer sizeofAppAddServer), .unlock (some 0)]

theorem locks_balanced_adding :
    ((adding.foldl exec idle).driver.lockList (some 0)).list = [0]
      ∧ ((adding.foldl exec idle).driver.lockList (some 0)).lockCount = 0 := by
  have hr : Sys.Run Step idle adding (adding.foldl exec idle) := by
    refine Sys.Allowed.run ⟨trivial, trivial, fun h => ?_, ?_, trivial⟩
    · exact absurd h.2.1 (by decide)
    · exact Nat.one_pos
  have hidle : ∀ l, Quiet (idle.driver.lockList l) (idle.held l) := by
    intro l
    cases l <;> exact ⟨rfl, fun _ => ⟨rfl, rfl⟩⟩
  refine ⟨by decide +kernel, ?_⟩
  exact ((locks_balanced idle.driver).2 idle.held adding _ hidle hr (some 0)).lockCount

/-- With the router attached, a request to delete a server it does not have. -/
theorem not_balanced_of_deletion :
    ¬ ∀ (past : ServerPtr → Bool) (now : ℤ) (d : Driver) (irp : Irp),
      d.SameLocks (filterDeviceIoControl past now d irp).1 := by
  intro h
  have := h (fun _ => false) 0 (idle.exec (.add none 0)).driver
    (about ioctlRouterDelServer sizeofAppDelServer) (some 0)
  revert this
  decide +kernel

end Device

end LcxlNetLoader
