/-
# `PsvEmmc.Client.Served` — a dump that the network serves

`dump_device` pings, reads sector 0 and dumps the entry that memory then
holds, if it is not empty.  `DumpServed` says of the network that each
request of this is served, and of nothing else: what the requests are depends
on the bytes of sector 0 and of the stack, not on what the client makes of
them.

A `dump_device` that returns has left a socket open exactly when the dump was
served, and where it is served `dump_device` returns.
-/
import PsvEmmc.Client.Device

namespace PsvEmmc

open Words Memory

variable {Addr σ : Type}

/-- Sector 0 is served in a known mode, and `m` holds it; in another mode nothing is asked. -/
def Winsock.SectorServed (w : Winsock σ) (dumpMode : Int32) (mbr m : Frame) (s s' : σ) : Prop :=
  match Device.ofDumpMode dumpMode with
  | some dev => ∃ mbrSector, w.Serves (.readSector dev 0) mbrSector s s' ∧ m = mbr.copy mbrSector
  | none => m = mbr ∧ s' = s

/-- Behind the ping: sector 0, and all requests for the entry in memory, if it is not empty. -/
def Winsock.PartitionServed (w : Winsock σ) (mbr : Frame) (dumpMode dumpPartitionIndex : Int32)
    (s : σ) : Prop :=
  ∃ m s', w.SectorServed dumpMode mbr m s s' ∧
    (m.partitionType dumpPartitionIndex ≠ 0 →
      ∃ s'', w.ServesAll (dumpRequests dumpMode (m.partition dumpPartitionIndex)) s' s'')

/-- All that `dump_device` asks for is served: the ping, and the rest if it is the proxy that
answers. -/
def Winsock.DumpServed (w : Winsock σ) (mbr : Frame) (dumpMode dumpPartitionIndex : Int32)
    (s : σ) : Prop :=
  ∃ data s', w.Serves .ping data s s' ∧
    (data = emmcProxyData → w.PartitionServed mbr dumpMode dumpPartitionIndex s')

section served

variable {w : Winsock σ} {mbr m : Frame} {dumpMode dumpPartitionIndex : Int32} {s s' : σ}

/-- Sector 0 is served exactly when `read_sector` comes to an end, without an error if the mode
is known. -/
theorem sectorServed_iff :
    w.SectorServed dumpMode mbr m s s' ↔
      ∃ fuel ret mbrSector,
        readSectorMode w fuel dumpMode 0 s = some (ret, mbrSector, s') ∧
        (KnownMode dumpMode → 0 ≤ ret) ∧ m = mbr.afterRead ret mbrSector := by
  unfold Winsock.SectorServed
  by_cases hmode : KnownMode dumpMode
  · obtain ⟨dev, rfl⟩ := hmode
    rw [Device.ofDumpMode_dumpMode]
    simp only [readSectorMode_dumpMode, ← emmcReadSectorOn_iff]
    constructor
    · rintro ⟨mbrSector, ⟨fuel, ret, hread, hret⟩, rfl⟩
      exact ⟨fuel, ret, mbrSector, hread, fun _ => hret, (if_neg (Int.not_lt.mpr hret)).symm⟩
    · rintro ⟨fuel, ret, mbrSector, hread, hret, rfl⟩
      have hret := hret ⟨dev, rfl⟩
      exact ⟨mbrSector, ⟨fuel, ret, hread, hret⟩, if_neg (Int.not_lt.mpr hret)⟩
  · rw [Device.ofDumpMode_unknown hmode]
    simp only [readSectorMode_unknown hmode]
    constructor
    · rintro ⟨rfl, rfl⟩
      exact ⟨0, -1, [], rfl, fun hknown => absurd hknown hmode, rfl⟩
    · rintro ⟨_, _, _, he, _, rfl⟩
      cases he
      exact ⟨rfl, rfl⟩

/-- There is one answer to the ping. -/
theorem dumpServed_of_ping {data : List UInt8} (h : w.Serves .ping data s s') :
    w.DumpServed mbr dumpMode dumpPartitionIndex s ↔
      (data = emmcProxyData → w.PartitionServed mbr dumpMode dumpPartitionIndex s') := by
  constructor
  · rintro ⟨data', s'', h', hrest⟩ hdata
    have hping := emmcPing_iff.mpr (hdata ▸ h)
    have hsame := emmcPing_of_serves h'
    obtain ⟨ret, hping, hret⟩ := hping
    rw [hping] at hsame
    obtain ⟨hret', rfl⟩ := Prod.mk.inj hsame
    by_cases hdata' : data' = emmcProxyData
    · exact hrest hdata'
    · rw [if_neg hdata'] at hret'
      omega
  · exact fun hrest => ⟨data, s', h, hrest⟩

/-- Behind a ping that succeeded, `dump_device` returns only if the read did. -/
theorem readSector_returned {fuel : Nat} {d : DeviceDump σ} (hping : ¬ (emmcPing w s).1 < 0)
    (hcall : dumpDevice w fuel mbr dumpMode dumpPartitionIndex s = some d) :
    ∃ ret mbrSector s₂, readSectorMode w fuel dumpMode 0 (emmcPing w s).2 =
      some (ret, mbrSector, s₂) := by
  cases hread : readSectorMode w fuel dumpMode 0 (emmcPing w s).2 with
  | none =>
      rw [dumpDevice, chosenPartition_eq, if_neg hping, hread] at hcall
      cases hcall
  | some answer => exact ⟨_, _, _, rfl⟩

/-- A dump that is served comes to an end. -/
theorem dumpDevice_returns (h : w.DumpServed mbr dumpMode dumpPartitionIndex s) :
    ∃ fuel d, dumpDevice w fuel mbr dumpMode dumpPartitionIndex s = some d := by
  obtain ⟨data, s₁, hping, hrest⟩ := h
  by_cases hret : (emmcPing w s).1 < 0
  · have hchosen : chosenPartition w 0 mbr dumpMode dumpPartitionIndex s =
        some (.error (-1), (emmcPing w s).2) :=
      chosenPartition_error_iff.mpr ⟨rfl, Or.inl ⟨hret, rfl⟩⟩
    exact ⟨0, _, dumpDevice_undumped_iff.mpr hchosen⟩
  · have hping' := emmcPing_of_serves hping
    have hdata : data = emmcProxyData := by
      by_contra hdata
      rw [hping', if_neg hdata] at hret
      exact hret (show (-1 : Int) < 0 by decide)
    obtain ⟨m, s₂, hsector, hdump⟩ := hrest hdata
    obtain ⟨fuel₁, ret, mbrSector, hread, _, rfl⟩ := sectorServed_iff.mp hsector
    have hs₁ : s₁ = (emmcPing w s).2 := by rw [hping']
    rw [hs₁] at hread
    by_cases htype : (mbr.afterRead ret mbrSector).partitionType dumpPartitionIndex = 0
    · exact ⟨fuel₁, _, dumpDevice_undumped_iff.mpr (chosenPartition_error_iff.mpr
        ⟨rfl, Or.inr ⟨Int.not_lt.mp hret, ret, mbrSector, hread, htype⟩⟩)⟩
    · obtain ⟨s₃, hserves⟩ := hdump htype
      obtain ⟨fuel₂, d, hdump⟩ := dumpPartition_returns hserves
      have hchosen := chosenPartition_ok_iff.mpr
        ⟨Int.not_lt.mp hret, ret, mbrSector, hread, htype, rfl⟩
      refine ⟨max fuel₁ fuel₂,
        ⟨0, some ((mbr.afterRead ret mbrSector).partition dumpPartitionIndex, d), d.world⟩, ?_⟩
      rw [dumpDevice, chosenPartition_mono (Nat.le_max_left fuel₁ fuel₂) hchosen]
      dsimp only
      rw [dumpPartition_mono (Nat.le_max_right fuel₁ fuel₂) hdump]

end served

/-! ## Served dumps and the calls of a run -/

section recorded

variable {api : WinsockApi Addr σ} {h : Socket} {mbr m : Frame}
  {dumpMode dumpPartitionIndex : Int32} {t : Recorded σ} {s' : σ}

theorem sectorServed_recorded :
    (∃ log, (api.recorded.on h).SectorServed dumpMode mbr m t (s', log)) ↔
      (api.on h).SectorServed dumpMode mbr m t.1 s' := by
  unfold Winsock.SectorServed
  split
  · constructor
    · rintro ⟨log, mbrSector, hs, rfl⟩
      exact ⟨mbrSector, serves_recorded.mp ⟨log, hs⟩, rfl⟩
    · rintro ⟨mbrSector, hs, rfl⟩
      obtain ⟨log, hs⟩ := serves_recorded.mpr hs
      exact ⟨log, mbrSector, hs, rfl⟩
  · constructor
    · rintro ⟨log, rfl, rfl⟩
      exact ⟨rfl, rfl⟩
    · rintro ⟨rfl, rfl⟩
      exact ⟨t.2, rfl, rfl⟩

theorem partitionServed_recorded :
    (api.recorded.on h).PartitionServed mbr dumpMode dumpPartitionIndex t ↔
      (api.on h).PartitionServed mbr dumpMode dumpPartitionIndex t.1 := by
  constructor
  · rintro ⟨m, t', hsector, hrest⟩
    refine ⟨m, t'.1, sectorServed_recorded.mp ⟨t'.2, hsector⟩, fun htype => ?_⟩
    obtain ⟨t'', hs⟩ := hrest htype
    exact ⟨t''.1, servesAll_recorded.mp ⟨t''.2, hs⟩⟩
  · rintro ⟨m, s', hsector, hrest⟩
    obtain ⟨log, hsector⟩ := sectorServed_recorded.mpr hsector
    refine ⟨m, (s', log), hsector, fun htype => ?_⟩
    obtain ⟨s'', hs⟩ := hrest htype
    obtain ⟨log', hs⟩ := (servesAll_recorded (t := (s', log))).mpr hs
    exact ⟨(s'', log'), hs⟩

theorem dumpServed_recorded :
    (api.recorded.on h).DumpServed mbr dumpMode dumpPartitionIndex t ↔
      (api.on h).DumpServed mbr dumpMode dumpPartitionIndex t.1 := by
  constructor
  · rintro ⟨data, t', hping, hrest⟩
    exact ⟨data, t'.1, serves_recorded.mp ⟨t'.2, hping⟩,
      fun hdata => partitionServed_recorded.mp (hrest hdata)⟩
  · rintro ⟨data, s', hping, hrest⟩
    obtain ⟨log, hping⟩ := serves_recorded.mpr hping
    exact ⟨data, (s', log), hping,
      fun hdata => (partitionServed_recorded (t := (s', log))).mpr (hrest hdata)⟩

/-- The end of `read_sector`, for a sector 0 that is served or not. -/
theorem readSector_served {P : Request → Prop} {fuel : Nat} {ret : Int} {mbrSector : List UInt8}
    {t' : Recorded σ} (hP : ∀ r, P r)
    (hread : readSectorMode (api.recorded.on h) fuel dumpMode 0 t = some (ret, mbrSector, t')) :
    Reports api fuel h P True
        (∃ m t'', (api.recorded.on h).SectorServed dumpMode mbr m t t'') t t' ∧
      ∀ {m t''}, (api.recorded.on h).SectorServed dumpMode mbr m t t'' →
        m = mbr.afterRead ret mbrSector ∧ t'' = t' := by
  have hunique : ∀ {m t''}, (api.recorded.on h).SectorServed dumpMode mbr m t t'' →
      (KnownMode dumpMode → 0 ≤ ret) ∧ m = mbr.afterRead ret mbrSector ∧ t'' = t' := by
    intro m t'' hs
    obtain ⟨fuel', ret', mbrSector', hread', hret, rfl⟩ := sectorServed_iff.mp hs
    cases eq_of_mono readSectorMode_mono hread hread'
    exact ⟨hret, rfl, rfl⟩
  refine ⟨?_, fun hs => (hunique hs).2⟩
  have hiff : (∃ m t'', (api.recorded.on h).SectorServed dumpMode mbr m t t'') ↔
      (KnownMode dumpMode → 0 ≤ ret) :=
    ⟨fun ⟨_, _, hs⟩ => (hunique hs).1,
      fun hret => ⟨_, t', sectorServed_iff.mpr ⟨fuel, ret, mbrSector, hread, hret, rfl⟩⟩⟩
  by_cases hmode : KnownMode dumpMode
  · refine ((readSectorMode_reports (fun _ => hP _) hread).1.congr ?_).weaken (fun _ => hmode)
    rw [hiff]
    exact ⟨fun hret _ => hret, fun hret => hret hmode⟩
  · rw [readSectorMode_unknown hmode] at hread
    cases hread
    exact .refl (fun _ => hiff.mpr (fun hknown => absurd hknown hmode))

/-- `dump_device` tells by its calls whether the dump was served. -/
theorem dumpDevice_served {P : Request → Prop} {fuel : Nat} {d : DeviceDump (Recorded σ)}
    (hP : ∀ r, P r)
    (hcall : dumpDevice (api.recorded.on h) fuel mbr dumpMode dumpPartitionIndex t = some d) :
    Reports api fuel h P True
      ((api.recorded.on h).DumpServed mbr dumpMode dumpPartitionIndex t) t d.world := by
  have hping : Reports api fuel h P True (∃ data t', (api.recorded.on h).Serves .ping data t t') t
      (emmcPing (api.recorded.on h) t).2 := emmcPing_served fuel (hP .ping)
  by_cases hret : (emmcPing (api.recorded.on h) t).1 < 0
  · have hchosen : chosenPartition (api.recorded.on h) fuel mbr dumpMode dumpPartitionIndex t =
        some (.error (-1), (emmcPing (api.recorded.on h) t).2) :=
      chosenPartition_error_iff.mpr ⟨rfl, Or.inl ⟨hret, rfl⟩⟩
    cases hcall.symm.trans (dumpDevice_undumped_iff.mpr hchosen)
    refine hping.congr ⟨?_, fun ⟨data, t', hs, _⟩ => ⟨data, t', hs⟩⟩
    rintro ⟨data, t', hs⟩
    refine ⟨data, t', hs, fun hdata => ?_⟩
    rw [emmcPing_of_serves hs, if_pos hdata] at hret
    exact absurd hret (Int.lt_irrefl 0)
  · have hserved := emmcPing_iff.mp ⟨_, rfl, Int.not_lt.mp hret⟩
    rw [dumpServed_of_ping hserved]
    have hpinged := hping.congr (iff_true_intro ⟨_, _, hserved⟩)
    obtain ⟨ret, mbrSector, t₂, hread⟩ := readSector_returned hret hcall
    obtain ⟨hreads, hunique⟩ : Reports api fuel h P True
        (∃ m t'', (api.recorded.on h).SectorServed dumpMode mbr m _ t'') _ t₂ ∧ _ :=
      readSector_served hP hread
    have hfirst := (hpinged.trans hreads).congr (true_and _).to_iff
    by_cases htype : (mbr.afterRead ret mbrSector).partitionType dumpPartitionIndex = 0
    · cases hcall.symm.trans (dumpDevice_undumped_iff.mpr (chosenPartition_error_iff.mpr
        ⟨rfl, Or.inr ⟨Int.not_lt.mp hret, ret, mbrSector, hread, htype⟩⟩))
      refine hfirst.congr ⟨?_, ?_⟩
      · rintro ⟨m, t', hs⟩ _
        refine ⟨m, t', hs, fun hused => ?_⟩
        rw [(hunique hs).1] at hused
        exact absurd htype hused
      · intro hrest
        obtain ⟨m, t', hs, _⟩ := hrest rfl
        exact ⟨m, t', hs⟩
    · have hchosen := chosenPartition_ok_iff.mpr
        ⟨Int.not_lt.mp hret, ret, mbrSector, hread, htype, rfl⟩
      rw [dumpDevice, hchosen] at hcall
      dsimp only at hcall
      split at hcall
      · cases hcall
      · rename_i dump hdump
        cases hcall
        refine (hfirst.trans (dumpPartition_served hP hdump)).congr ⟨?_, ?_⟩
        · rintro ⟨⟨m, t', hs⟩, hall⟩ _
          obtain ⟨rfl, rfl⟩ := hunique hs
          exact ⟨_, _, hs, fun _ => hall⟩
        · intro hrest
          obtain ⟨m, t', hs, hall⟩ := hrest rfl
          obtain ⟨rfl, rfl⟩ := hunique hs
          exact ⟨⟨_, _, hs⟩, hall htype⟩

end recorded

end PsvEmmc
