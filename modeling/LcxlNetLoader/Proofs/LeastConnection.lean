import LcxlNetLoader.Lib.Champion
import LcxlNetLoader.Proofs.Selection

/-!
# The server with the fewest references

The loop over the servers compares each available one with the best so far, whose count is one up
meanwhile. So it leaves the champion of the counts on entry, where a server beats one of as many
references, or one being checked. A server being checked beats others by its count as well, which
is what may leave the choice dominated (`leastConnection_undominated_iff`).
-/

namespace LcxlNetLoader

open Champion

variable {t : ServerTable} {m : IpMode}

namespace ServerTable

/-- The loop takes `p` over `b` by what they are on entry. -/
def beats (t : ServerTable) (p b : ServerPtr) : Bool :=
  decide ((t.mem p).refCount ≤ (t.mem b).refCount) || t.checking b && !t.checking p

theorem betterServer_eq {b p : ServerPtr} (hp : p ≠ b) :
    betterServer (incRefOption t (some b)) (some b) p = t.beats p b := by
  have hb : ((incRefListEntry t b).mem b).refCount = (t.mem b).refCount + 1 := by
    rw [incRefListEntry, modify_mem_same]
  have hp' : (incRefListEntry t b).mem p = t.mem p := modify_mem_of_ne hp
  have hchecking : has ((incRefListEntry t b).mem b).info.status ssChecking = t.checking b := by
    rw [checking, RefOnly.inc.info]
  rw [betterServer, incRefOption, hb, hp', hchecking, beats, checking]
  congr 1
  exact decide_eq_decide.2 Int.lt_add_one_iff

end ServerTable

theorem leastConnectionLoop_snd (h : ∀ p ∈ t.lst.list, t.avaliable m p → 1 ≤ (t.mem p).refCount) :
    ∀ (ps : List ServerPtr) (best : Option ServerPtr), ps.Nodup → (∀ p ∈ ps, p ∈ t.lst.list) →
      (∀ b ∈ best, b ∈ t.lst.list ∧ t.avaliable m b ∧ b ∉ ps) →
      (leastConnectionLoop m ps (incRefOption t best) best).2 =
        champion t.beats best (ps.filter (t.avaliable m))
  | [], best, _, _, _ => rfl
  | p :: ps, best, hn, hps, hbest => by
    obtain ⟨hp, hn⟩ := List.nodup_cons.1 hn
    rw [List.forall_mem_cons] at hps
    have hrest : ∀ b ∈ best, b ∈ t.lst.list ∧ t.avaliable m b ∧ b ∉ ps := fun b hb =>
      ⟨(hbest b hb).1, (hbest b hb).2.1, fun hm => (hbest b hb).2.2 (List.mem_cons_of_mem p hm)⟩
    have hsome : t.avaliable m p → ∀ b ∈ some p, b ∈ t.lst.list ∧ t.avaliable m b ∧ b ∉ ps := by
      simpa using fun ha => ⟨hps.1, ha, hp⟩
    have ha : serverIsAvaliable ((incRefOption t best).mem p) m = t.avaliable m p :=
      (refOnly_incRefOption t best).avaliable p m
    simp only [leastConnectionLoop, ha]
    rcases hav : t.avaliable m p
    · rw [Bool.false_and, if_neg Bool.false_ne_true, List.filter_cons_of_neg (by simp [hav])]
      exact leastConnectionLoop_snd h ps best hn hps.2 hrest
    rw [Bool.true_and, List.filter_cons_of_pos hav, champion, List.foldl_cons, ← champion]
    rcases best with _ | b
    · exact leastConnectionLoop_snd h ps (some p) hn hps.2 (hsome hav)
    · obtain ⟨hb, hab, hne⟩ := hbest b rfl
      have hpb : p ≠ b := fun heq => hne (List.mem_cons.2 (.inl heq.symm))
      rw [ServerTable.betterServer_eq hpb, challenge]
      split_ifs
      · simp only [incRefOption, ServerTable.dec_inc (h b hb hab)]
        exact leastConnectionLoop_snd h ps (some p) hn hps.2 (hsome hav)
      · exact leastConnectionLoop_snd h ps (some b) hn hps.2 hrest

/-- Of all servers, the last of the ready ones with the fewest references is selected if none
being checked behind it has as few, and otherwise one it dominates is. -/
theorem champion_undominated_iff (hn : t.lst.list.Nodup) {before behind : List ServerPtr}
    {p : ServerPtr} (hlist : t.lst.list = before ++ p :: behind) (hp : t.ready m p)
    (hbefore : ∀ q ∈ before, t.ready m q → (t.mem p).refCount ≤ (t.mem q).refCount)
    (hbehind : ∀ q ∈ behind, t.ready m q → (t.mem p).refCount < (t.mem q).refCount) :
    (∀ s, champion t.beats none (t.lst.list.filter (t.avaliable m)) = some s → t.Undominated m s) ↔
      ∀ q ∈ behind, t.avaliable m q → t.checking q → (t.mem p).refCount < (t.mem q).refCount := by
  have hready : ∀ {q}, t.ready m q = true ↔ t.avaliable m q = true ∧ t.checking q = false := by
    simp [ServerTable.ready]
  obtain ⟨hpa, hpc⟩ := hready.1 hp
  have hpl : p ∈ t.lst.list := hlist ▸ List.mem_append_right before List.mem_cons_self
  have hpb : p ∉ behind := by
    rw [hlist] at hn
    exact (List.nodup_cons.1 hn.of_append_right).1
  have hchampion : champion t.beats none (t.lst.list.filter (t.avaliable m)) =
      champion t.beats (some p) (behind.filter (t.avaliable m)) := by
    rw [hlist, List.filter_append, List.filter_cons_of_pos hpa]
    refine champion_of_beats fun q hq => ?_
    obtain ⟨hq, hqa⟩ := List.mem_filter.1 hq
    rcases hqc : t.checking q
    · simp [ServerTable.beats, hbefore q hq (hready.2 ⟨hqa, hqc⟩)]
    · simp [ServerTable.beats, hqc, hpc]
  have hself : champion t.beats (some p) (behind.filter (t.avaliable m)) = some p ↔
      ∀ q ∈ behind.filter (t.avaliable m), t.beats q p = false :=
    champion_eq_self_iff fun h => hpb (List.mem_filter.1 h).1
  obtain ⟨s, hs, hresult⟩ := champion_some t.beats (behind.filter (t.avaliable m)) p
  have hundominated : t.Undominated m s ↔ s = p := by
    constructor
    · intro h
      rcases List.mem_cons.1 hs with hs | hs
      · exact hs
      · obtain ⟨hs, hsa⟩ := List.mem_filter.1 hs
        rcases hsc : t.checking s
        · exact absurd (hbehind s hs (hready.2 ⟨hsa, hsc⟩)) (h.least p hpl hp)
        · exact absurd (h.checking hsc p hpl hpa) (by simp [hpc])
    · rintro rfl
      refine ⟨fun q hq hqr => ?_, fun hc => absurd hc (by simp [hpc])⟩
      rw [hlist, List.mem_append, List.mem_cons] at hq
      rcases hq with hq | rfl | hq
      · exact not_lt.2 (hbefore q hq hqr)
      · exact lt_irrefl _
      · exact (hbehind q hq hqr).not_gt
  have hbeats : (∀ q ∈ behind.filter (t.avaliable m), t.beats q p = false) ↔
      ∀ q ∈ behind, t.avaliable m q → t.checking q → (t.mem p).refCount < (t.mem q).refCount := by
    simp only [List.mem_filter, and_imp, ServerTable.beats, hpc, Bool.false_and, Bool.or_false,
      decide_eq_false_iff_not, not_le]
    refine forall₃_congr fun q hq hqa => ⟨fun h _ => h, fun h => ?_⟩
    rcases hqc : t.checking q
    · exact hbehind q hq (hready.2 ⟨hqa, hqc⟩)
    · exact h hqc
  rw [← hbeats, ← hself, hchampion, hresult, Option.some_inj, ← hundominated]
  simp

/-- A selection by the fewest references is undominated if no server being checked comes behind
the last of the ready servers with the fewest and has as few. -/
theorem leastConnection_undominated_iff (h : t.Listed)
    (hr : ∀ p ∈ t.lst.list, t.avaliable m p → 1 ≤ (t.mem p).refCount) {alg : ℤ}
    (halg : alg = raFastResponse ∨ alg = raLeastConnection) (dstAddr : List UInt8)
    (ra : RoutingAlgorithmData) :
    (∀ s, (selectBestServer t m dstAddr alg ra).2.2 = some s → t.Undominated m s) ↔
      t.Undisturbed m := by
  have hloop := leastConnectionLoop_snd (t := lockServerList t) hr t.lst.list none h.nodup
    (fun _ hp => hp) (by simp)
  have hselect : (selectBestServer t m dstAddr alg ra).2.2 =
      champion t.beats none (t.lst.list.filter (t.avaliable m)) := by
    rw [selectBestServer_snd h, if_pos halg]
    exact hloop
  rw [hselect]
  constructor
  · intro hall before p behind hlist hp hbefore hbehind
    exact (champion_undominated_iff h.nodup hlist hp hbefore hbehind).1 hall
  · intro hcalm
    by_cases hready : ∃ p ∈ t.lst.list, t.ready m p
    · obtain ⟨before, p, behind, hlist, hp, hbefore, hbehind⟩ :=
        exists_last_min (t.ready m) (fun p => (t.mem p).refCount) hready
      exact (champion_undominated_iff h.nodup hlist hp hbefore hbehind).2
        (hcalm before p behind hlist hp hbefore hbehind)
    · -- Every available server is being checked.
      intro s _
      refine ⟨fun p hp hpr => absurd ⟨p, hp, hpr⟩ hready, fun _ p hp hpa => ?_⟩
      by_contra hpc
      exact hready ⟨p, hp, by simp [ServerTable.ready, hpa, hpc]⟩

/-- The server being checked has as many references as the one in front of it. -/
theorem leastConnection_dominated :
    ¬ ∀ s, (selectBestServer (sampleServers [(ssOnline, 1), (ssOnline ||| ssChecking, 1)]) .ipv4 []
        raLeastConnection ⟨0⟩).2.2 = some s →
      (sampleServers [(ssOnline, 1), (ssOnline ||| ssChecking, 1)]).Undominated .ipv4 s := fun h =>
  absurd ((h 2 (by decide)).checking (by decide) 1 (by decide) (by decide)) (by decide)

/-- The server being checked comes first, and has fewer references than the other. -/
theorem leastConnection_undominated_iff_two :
    (∀ s, (selectBestServer (sampleServers [(ssOnline ||| ssChecking, 1), (ssOnline, 2)]) .ipv4 []
        raLeastConnection ⟨0⟩).2.2 = some s →
      (sampleServers [(ssOnline ||| ssChecking, 1), (ssOnline, 2)]).Undominated .ipv4 s) ↔
    (sampleServers [(ssOnline ||| ssChecking, 1), (ssOnline, 2)]).Undisturbed .ipv4 :=
  leastConnection_undominated_iff (t := sampleServers [(ssOnline ||| ssChecking, 1), (ssOnline, 2)])
    ⟨by decide, rfl⟩ (by decide) (.inr rfl) [] ⟨0⟩

end LcxlNetLoader
