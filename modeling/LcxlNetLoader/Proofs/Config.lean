import LcxlNetLoader.Config

/-!
# The service's server list as a set of addresses

In a list without two servers of one address, storing a server makes its address the list's, and
removing one takes its address away.
-/

namespace LcxlNetLoader

namespace IfPhysicalAddress

variable {a b : IfPhysicalAddress}

theorem value_length (h : a.length ≤ 32) : a.value.length = a.length := by
  simp [value, h]

theorem same_iff (ha : a.length ≤ 32) (hb : b.length ≤ 32) :
    a.same b = true ↔ a.value = b.value := by
  simp only [same, Bool.and_eq_true, beq_iff_eq]
  refine ⟨fun h => ?_, fun h => ?_⟩
  · rw [value, value, h.1]
    exact h.2
  · have hl : a.length = b.length := by rw [← value_length ha, ← value_length hb, h]
    refine ⟨hl, ?_⟩
    rw [value, value, hl] at h
    exact h

end IfPhysicalAddress

namespace LcxlConfig

variable {serverList : List ConfigServer} {macAddr : IfPhysicalAddress} {server : ConfigServer}

/-- The addresses of a server list. -/
def macs (serverList : List ConfigServer) : List (List UInt8) :=
  serverList.map (·.server.macAddr.value)

/-- All addresses fit into their 32 bytes. -/
def Short (serverList : List ConfigServer) : Prop :=
  ∀ c ∈ serverList, c.server.macAddr.length ≤ 32

theorem findServer_eq_none (hl : Short serverList) (hm : macAddr.length ≤ 32) :
    findServer serverList macAddr = none ↔ macAddr.value ∉ macs serverList := by
  simp only [findServer, List.findIdx?_eq_none_iff, macs, List.mem_map, not_exists, not_and]
  refine forall₂_congr fun c hc => ?_
  rw [← Bool.not_eq_true, IfPhysicalAddress.same_iff (hl c hc) hm]

theorem findServer_eq_some {i : ℕ} (hl : Short serverList) (hm : macAddr.length ≤ 32)
    (h : findServer serverList macAddr = some i) :
    ∃ hi : i < serverList.length, (serverList[i]).server.macAddr.value = macAddr.value := by
  obtain ⟨hi, hs, -⟩ := List.findIdx?_eq_some_iff_getElem.1 h
  exact ⟨hi, (IfPhysicalAddress.same_iff (hl _ (List.getElem_mem hi)) hm).1 hs⟩

theorem macs_updateServer (hl : Short serverList) (hm : server.server.macAddr.length ≤ 32) :
    macs (updateServer serverList server) =
      if server.server.macAddr.value ∈ macs serverList then macs serverList
      else macs serverList ++ [server.server.macAddr.value] := by
  unfold updateServer
  rcases hf : findServer serverList server.server.macAddr with _ | i
  · rw [if_neg ((findServer_eq_none hl hm).1 hf)]
    simp [macs]
  · obtain ⟨hi, hv⟩ := findServer_eq_some hl hm hf
    have hin : server.server.macAddr.value ∈ macs serverList :=
      hv ▸ List.mem_map_of_mem (List.getElem_mem hi)
    rw [if_pos hin]
    have hset : (macs serverList).set i server.server.macAddr.value = macs serverList := by
      have hi' : i < (macs serverList).length := by simpa [macs] using hi
      have hget : (macs serverList)[i] = server.server.macAddr.value := by simpa [macs] using hv
      rw [← hget]
      exact List.set_getElem_self hi'
    simpa [macs, List.map_set] using hset

/-- Erasing the first element that has the image is erasing the image. -/
theorem map_eraseP {α β : Type*} [BEq β] [LawfulBEq β] {f : α → β} {b : β} {p : α → Bool} :
    ∀ {l : List α}, (∀ x ∈ l, p x = true ↔ f x = b) → (l.eraseP p).map f = (l.map f).erase b
  | [], _ => rfl
  | x :: l, h => by
    simp only [List.mem_cons, forall_eq_or_imp] at h
    by_cases hx : p x = true
    · rw [List.eraseP_cons_of_pos hx, List.map_cons, h.1.1 hx, List.erase_cons_head]
    · rw [List.eraseP_cons_of_neg hx, List.map_cons, List.map_cons, map_eraseP h.2,
        List.erase_cons_tail (by simpa using fun he => hx (h.1.2 he))]

theorem macs_removeServer (hl : Short serverList) (hm : macAddr.length ≤ 32) :
    macs (removeServer serverList macAddr).1 = (macs serverList).erase macAddr.value := by
  have herase : (removeServer serverList macAddr).1
      = serverList.eraseP fun c => c.server.macAddr.same macAddr := by
    rw [List.eraseP_eq_eraseIdx]
    unfold removeServer findServer
    split <;> simp only [*]
  rw [herase]
  exact map_eraseP fun c hc => IfPhysicalAddress.same_iff (hl c hc) hm

theorem short_updateServer (hl : Short serverList) (hm : server.server.macAddr.length ≤ 32) :
    Short (updateServer serverList server) := by
  intro c hc
  unfold updateServer at hc
  split at hc
  · rcases List.mem_or_eq_of_mem_set hc with hc | rfl
    · exact hl c hc
    · exact hm
  · rcases List.mem_append.1 hc with hc | hc
    · exact hl c hc
    · obtain rfl : c = server := by simpa using hc
      exact hm

theorem short_removeServer (hl : Short serverList) :
    Short (removeServer serverList macAddr).1 := by
  intro c hc
  unfold removeServer at hc
  split at hc
  · exact hl c (List.mem_of_mem_eraseIdx hc)
  · exact hl c hc

end LcxlConfig

end LcxlNetLoader
