import Mathlib.Algebra.Group.Nat.Defs
import PagedMemory.Proofs.RegionTables
import PagedMemory.Setup

/-!
# Settings in any order

Devices are attached one after the other, and the first one that is refused ends the building of a
machine. Yet the order of the settings decides nothing but which of the sizes, and which choice of
tracking, is the last: whether the devices can be attached is a condition on all of them together,
and the region that holds an address is the same wherever it stands in the table.

- `Setup.ofList_eq`: what settings lead to, read off each kind of them by itself;
- `Setup.build_eq_ok_iff`: a machine is built exactly if its setup is feasible;
- `RegionTable.Sound.perm`: whether regions meet does not depend on their order;
- `Setup.build_order_free`: the condition on the settings, and what becomes of a machine when they
  are given in another order.
-/

namespace PagedMemory

variable {δ : Type}

/-! ## Kinds of settings -/

namespace Setting

/-- The size of RAM that is set, in bytes. -/
def ramSize? : Setting δ → Option Nat
  | .mebibytes n => some (n.toNat * 1048576)
  | .bytes n => some n
  | .tracking _ | .device _ => none

/-- The tracking that is chosen. -/
def tracking? : Setting δ → Option Tracking
  | .tracking t => some t
  | .mebibytes _ | .bytes _ | .device _ => none

/-- The region that is added. -/
def region? : Setting δ → Option (Region δ)
  | .device region => some region
  | .mebibytes _ | .bytes _ | .tracking _ => none

/-- The last size of RAM among the settings; 128 MiB without any. -/
def lastRamSize (settings : List (Setting δ)) : Nat :=
  (settings.filterMap ramSize?).getLast?.getD 134217728

/-- The last choice of tracking among the settings; none without any. -/
def lastTracking (settings : List (Setting δ)) : Tracking :=
  (settings.filterMap tracking?).getLast?.getD .discard

/-- The regions among the settings. -/
def regions (settings : List (Setting δ)) : List (Region δ) := settings.filterMap region?

/-- A choice at the end is the last one. -/
theorem getLast?_choices {β : Type} (choice? : Setting δ → Option β) (settings : List (Setting δ))
    (setting : Setting δ) :
    ((settings ++ [setting]).filterMap choice?).getLast? =
      (choice? setting).or (settings.filterMap choice?).getLast? := by
  rw [List.filterMap_append]
  cases hchoice : choice? setting with
  | none =>
    rw [List.filterMap_cons_none hchoice, List.filterMap_nil, List.append_nil, Option.none_or]
  | some b =>
    rw [List.filterMap_cons_some hchoice, List.filterMap_nil, List.getLast?_concat, Option.some_or]

end Setting

namespace Setup

/-- Of each kind of settings the setup keeps what it needs. Induction on the settings from the
back. -/
theorem ofList_eq (settings : List (Setting δ)) :
    ofList settings =
      ⟨Setting.lastRamSize settings, Setting.lastTracking settings, Setting.regions settings⟩ := by
  induction settings using List.reverseRecOn with
  | nil => rfl
  | append_singleton settings setting ih =>
    rw [ofList] at ih
    rw [ofList, List.foldl_append, ih, Setting.lastRamSize, Setting.lastRamSize,
      Setting.lastTracking, Setting.lastTracking, Setting.getLast?_choices,
      Setting.getLast?_choices, Setting.regions, Setting.regions, List.filterMap_append]
    cases setting with
    | device region => rfl
    | _ => exact congrArg (Setup.mk _ _) (List.append_nil _).symm

end Setup

namespace RegionTable

variable {regions regions' : List (Region δ)} {limit : Nat} {addr : UInt32} {region : Region δ}

/-! ## Regions in any order -/

/-- Whether regions meet does not depend on their order. -/
theorem Sound.perm (h : (⟨regions⟩ : RegionTable δ).Sound limit) (hperm : regions.Perm regions') :
    (⟨regions'⟩ : RegionTable δ).Sound limit where
  inhabited region hregion := h.inhabited region (hperm.mem_iff.2 hregion)
  within region hregion := h.within region (hperm.mem_iff.2 hregion)
  apart := by
    have hsymm : ∀ {r s : Region δ}, r.range.Disjoint s.range → s.range.Disjoint r.range :=
      fun hdisjoint addr hs hr => hdisjoint addr hr hs
    exact (hperm.pairwise_iff hsymm).1 h.apart

/-- A region that comes before others does not meet those before it. -/
theorem Sound.admits_of_append {front rest : List (Region δ)}
    (h : (⟨front ++ region :: rest⟩ : RegionTable δ).Sound limit) :
    (⟨front⟩ : RegionTable δ).Admits limit region.range := by
  have hmem : region ∈ front ++ region :: rest := List.mem_append_right _ List.mem_cons_self
  obtain ⟨-, -, hfront⟩ := List.pairwise_append.1 h.apart
  exact ⟨h.inhabited region hmem, h.within region hmem,
    fun r hr => hfront r hr region List.mem_cons_self⟩

/-- The region that is found is the one that holds the address, wherever it stands. -/
theorem Sound.find?_map_snd {table : RegionTable δ} (h : table.Sound limit) :
    (table.find? addr).map Prod.snd = some region ↔
      region ∈ table.regions ∧ addr ∈ region.range := by
  rw [Option.map_eq_some_iff, List.mem_iff_getElem?]
  constructor
  · rintro ⟨⟨i, r⟩, hfind, rfl⟩
    obtain ⟨hi, haddr⟩ := h.find?_eq_some_iff.1 hfind
    exact ⟨⟨i, hi⟩, haddr⟩
  · rintro ⟨⟨i, hi⟩, haddr⟩
    exact ⟨(i, region), h.find?_eq_some_iff.2 ⟨hi, haddr⟩, rfl⟩

/-- The region that is found does not depend on the order of the regions. -/
theorem Sound.find?_perm (h : (⟨regions⟩ : RegionTable δ).Sound limit)
    (hperm : regions.Perm regions') :
    (find? ⟨regions⟩ addr).map Prod.snd = (find? ⟨regions'⟩ addr).map Prod.snd := by
  refine Option.ext fun region => ?_
  rw [h.find?_map_snd, (h.perm hperm).find?_map_snd]
  exact and_congr_left' hperm.mem_iff

end RegionTable

namespace Bus

variable {bus : Bus δ} {addr : UInt32}

/-- The name and the range of the region that serves `addr`; none if RAM serves it. -/
def claim? (bus : Bus δ) (addr : UInt32) : Option (String × Range) :=
  (bus.owner? addr).bind fun i => bus.table.claims[i]?

/-- The claim on an address is that of the region that is found for it. -/
theorem claim?_eq (bus : Bus δ) (addr : UInt32) :
    bus.claim? addr =
      ((bus.table.find? addr).map Prod.snd).map fun region => (region.name, region.range) := by
  rw [claim?, owner?]
  cases hfind : bus.table.find? addr with
  | none => rfl
  | some found =>
    obtain ⟨hi, -⟩ := RegionTable.locate_eq_some_iff.1 hfind
    show bus.table.claims[found.1]? = _
    rw [RegionTable.claims, List.getElem?_map, hi]
    rfl

end Bus

namespace Setup

open RegionTable

variable {setup setup' : Setup δ} {machine : Machine δ}

/-! ## Attaching all regions -/

/-- All regions are attached exactly if, with those in place, they do not meet; otherwise one of
them is refused. Induction on the regions, over all buses. -/
theorem attachAll_meets (regions : List (Region δ)) (bus : Bus δ)
    (hbus : bus.table.Sound bus.ram.size) :
    Op.Meets (· = bus) (attachAll regions)
      (fun _ after => after = ⟨bus.ram, ⟨bus.table.regions ++ regions⟩⟩ ∧
        after.table.Sound bus.ram.size)
      (fun _ _ => ¬ (⟨bus.table.regions ++ regions⟩ : RegionTable δ).Sound bus.ram.size) := by
  induction regions generalizing bus with
  | nil =>
    rintro _ rfl
    refine ⟨?_, hbus⟩
    rw [List.append_nil]
  | cons region rest ih =>
    rw [attachAll, Op.each_cons]
    by_cases hadmits : bus.table.Admits bus.ram.size region.range
    · have hrest := ih ⟨bus.ram, ⟨bus.table.regions ++ [region]⟩⟩ (hbus.concat hadmits)
      rw [List.append_assoc, List.singleton_append] at hrest
      have hrun : (do let _ ← Bus.attach region : Op (Bus δ) Unit).run bus =
          ⟨.ok (), ⟨bus.ram, ⟨bus.table.regions ++ [region]⟩⟩,
            [.attached region.name region.range]⟩ := by
        rw [Op.run_bind, Bus.run_attach_of_admits hbus hadmits]
        rfl
      exact Op.Meets.step hrun hrest
    · obtain ⟨e, hrun⟩ := Bus.run_attach_of_not_admits hbus hadmits
      rintro _ rfl
      rw [Op.run_bind, Op.run_bind, hrun]
      exact fun hsound => hadmits hsound.admits_of_append

/-! ## When a machine is built -/

/-- There can be RAM of the size, and the regions lie in it, hold addresses, and do not meet. -/
structure Feasible (setup : Setup δ) : Prop where
  size : 0 < setup.ramSize ∧ setup.ramSize ≤ UInt32.size
  sound : (⟨setup.regions⟩ : RegionTable δ).Sound setup.ramSize

/-- The machine is what the setup asks for. -/
structure Describes (setup : Setup δ) (machine : Machine δ) : Prop where
  size : machine.bus.ram.size = setup.ramSize
  tracking : machine.tracking = setup.tracking
  regions : machine.bus.table.regions = setup.regions

/-- What is built of a setup: the machine that it describes if it is feasible, and none
otherwise. -/
theorem build_cases (setup : Setup δ) :
    (∃ machine, setup.build.1 = .ok machine ∧ setup.Feasible ∧ setup.Describes machine) ∨
      ∃ e, setup.build.1 = .error e ∧ ¬ setup.Feasible := by
  rw [build]
  cases hram : Ram.zeroed setup.ramSize with
  | error e =>
    refine .inr ⟨e, rfl, fun hfeasible => ?_⟩
    rw [Ram.zeroed, dif_pos hfeasible.size] at hram
    cases hram
  | ok ram =>
    have hsize := Ram.size_of_zeroed hram
    have hattach := attachAll_meets setup.regions (.ofRam ram) (sound_empty _) _ rfl
    rcases hrun : (attachAll setup.regions).run (.ofRam ram) with ⟨e | _, bus, es⟩ <;>
      rw [hrun] at hattach <;> simp only [hrun]
    · refine .inr ⟨e, rfl, fun hfeasible => hattach ?_⟩
      show (⟨setup.regions⟩ : RegionTable δ).Sound ram.size
      rw [hsize]
      exact hfeasible.sound
    · obtain ⟨rfl, hsound⟩ := hattach
      have hbounds := ram.size_bounds
      refine .inl ⟨_, rfl, ⟨?_, ?_⟩, hsize, rfl, rfl⟩
      · rw [← hsize]
        exact hbounds
      · rw [← hsize]
        exact hsound

/-- A machine is built exactly if the setup is feasible. -/
theorem build_eq_ok_iff (setup : Setup δ) :
    (∃ machine, setup.build.1 = .ok machine) ↔ setup.Feasible := by
  rcases setup.build_cases with ⟨machine, hbuild, hfeasible, -⟩ | ⟨e, hbuild, hfeasible⟩
  · exact iff_of_true ⟨machine, hbuild⟩ hfeasible
  · refine iff_of_false ?_ hfeasible
    rintro ⟨machine, hmachine⟩
    rw [hbuild] at hmachine
    cases hmachine

/-! ## Settings in another order -/

/-- The machines have as much RAM, track alike, and give each address to a region of the same name
and range, whatever its number. -/
structure Alike (machine machine' : Machine δ) : Prop where
  size : machine.bus.ram.size = machine'.bus.ram.size
  tracking : machine.tracking = machine'.tracking
  claim? : ∀ addr, machine.bus.claim? addr = machine'.bus.claim? addr

/-- Both have been built, and are alike, or neither has. -/
def SameOutcome : Except Error (Machine δ) → Except Error (Machine δ) → Prop
  | .ok machine, .ok machine' => Alike machine machine'
  | .error _, .error _ => True
  | .ok _, .error _ | .error _, .ok _ => False

/-- Setups with the same regions in another order. -/
structure Reordered (setup setup' : Setup δ) : Prop where
  size : setup.ramSize = setup'.ramSize
  tracking : setup.tracking = setup'.tracking
  regions : setup.regions.Perm setup'.regions

theorem Reordered.symm (h : Reordered setup setup') : Reordered setup' setup :=
  ⟨h.size.symm, h.tracking.symm, h.regions.symm⟩

/-- Whether a setup is feasible does not depend on the order of its regions. -/
theorem Reordered.feasible (h : Reordered setup setup') (hfeasible : setup.Feasible) :
    setup'.Feasible := by
  refine ⟨?_, ?_⟩
  · rw [← h.size]
    exact hfeasible.size
  · rw [← h.size]
    exact hfeasible.sound.perm h.regions

/-- Machines of reordered setups are alike. -/
theorem Reordered.alike (h : Reordered setup setup') (hfeasible : setup.Feasible)
    {machine' : Machine δ} (hm : setup.Describes machine) (hm' : setup'.Describes machine') :
    Alike machine machine' where
  size := hm.size.trans (h.size.trans hm'.size.symm)
  tracking := hm.tracking.trans (h.tracking.trans hm'.tracking.symm)
  claim? addr := by
    rw [Bus.claim?_eq, Bus.claim?_eq, find?, find?, hm.regions, hm'.regions]
    exact congrArg _ (hfeasible.sound.find?_perm h.regions)

/-- Reordered setups are built alike. -/
theorem Reordered.sameOutcome (h : Reordered setup setup') :
    SameOutcome setup.build.1 setup'.build.1 := by
  rcases setup.build_cases with ⟨machine, hbuild, hfeasible, hm⟩ | ⟨e, hbuild, hfeasible⟩
  · rcases setup'.build_cases with ⟨machine', hbuild', -, hm'⟩ | ⟨e', -, hfeasible'⟩
    · rw [hbuild, hbuild']
      exact h.alike hfeasible hm hm'
    · exact absurd (h.feasible hfeasible) hfeasible'
  · rcases setup'.build_cases with ⟨machine', -, hfeasible', -⟩ | ⟨e', hbuild', -⟩
    · exact absurd (h.symm.feasible hfeasible') hfeasible
    · rw [hbuild, hbuild']
      trivial

/-- Settings in another order, with the sizes and the choices of tracking in the order in which they
were. -/
theorem reordered_ofList {settings settings' : List (Setting δ)} (hperm : settings.Perm settings')
    (hsizes : settings.filterMap Setting.ramSize? = settings'.filterMap Setting.ramSize?)
    (htrackings : settings.filterMap Setting.tracking? = settings'.filterMap Setting.tracking?) :
    Reordered (ofList settings) (ofList settings') := by
  rw [ofList_eq, ofList_eq]
  refine ⟨?_, ?_, hperm.filterMap _⟩
  · rw [Setting.lastRamSize, hsizes, Setting.lastRamSize]
  · rw [Setting.lastTracking, htrackings, Setting.lastTracking]

/-- A machine is built from settings exactly if the last size is one that RAM can have, and the
regions hold addresses, end in RAM, and share no address. In any order of the settings that keeps
the sizes and the choices of tracking in theirs, the outcome is the same. -/
theorem build_order_free (settings : List (Setting δ)) :
    let size := Setting.lastRamSize settings
    let regions := Setting.regions settings
    ((∃ machine, (ofList settings).build.1 = .ok machine) ↔
      (1 ≤ size ∧ size ≤ 2 ^ 32) ∧
      (∀ region ∈ regions, ¬ region.range.IsEmpty ∧ region.range.stop ≤ size) ∧
      regions.Pairwise fun r s => ¬ ∃ addr, addr ∈ r.range ∧ addr ∈ s.range) ∧
    ∀ settings' : List (Setting δ), settings.Perm settings' →
      settings.filterMap Setting.ramSize? = settings'.filterMap Setting.ramSize? →
      settings.filterMap Setting.tracking? = settings'.filterMap Setting.tracking? →
      SameOutcome (ofList settings).build.1 (ofList settings').build.1 := by
  intro size regions
  refine ⟨?_, fun settings' hperm hsizes htrackings =>
    (reordered_ofList hperm hsizes htrackings).sameOutcome⟩
  rw [build_eq_ok_iff, ofList_eq]
  simp only [not_exists, not_and]
  constructor
  · rintro ⟨hsize, hsound⟩
    exact ⟨hsize, fun region hregion =>
      ⟨hsound.inhabited region hregion, hsound.within region hregion⟩, hsound.apart⟩
  · rintro ⟨hsize, hregions, hapart⟩
    exact ⟨hsize, ⟨fun region hregion => (hregions region hregion).1,
      fun region hregion => (hregions region hregion).2, hapart⟩⟩

/-- A screen, with tracking on. -/
def screenSettings : List (Setting RegisterDevice) :=
  [.device ⟨"screen", ⟨0x1000, 0x100⟩, ⟨.latch, 0⟩⟩, .tracking .writeBack]

/-- A size of RAM that is changed at once, and a serial line next to the screen. -/
def serialSettings : List (Setting RegisterDevice) :=
  [.mebibytes 1, .bytes 65536, .device ⟨"serial", ⟨0x1100, 0x10⟩, ⟨.echo, 0⟩⟩]

/-- It does not matter which of the two are given first. -/
theorem build_order_free_screen : ∃ machine machine' : Machine RegisterDevice,
    (screenSettings ++ serialSettings).Perm (serialSettings ++ screenSettings) ∧
    (ofList (screenSettings ++ serialSettings)).build.1 = .ok machine ∧
    (ofList (serialSettings ++ screenSettings)).build.1 = .ok machine' ∧
    Alike machine machine' := by
  have hperm : (screenSettings ++ serialSettings).Perm (serialSettings ++ screenSettings) :=
    List.perm_append_comm
  obtain ⟨hbuild, horder⟩ := build_order_free (screenSettings ++ serialSettings)
  obtain ⟨machine, hmachine⟩ := hbuild.2 <| by
    refine ⟨by decide, by decide, List.pairwise_pair.2 ?_⟩
    rintro ⟨addr, hscreen, hserial⟩
    have hstop : addr.toNat < 0x1100 := hscreen.2
    have hbase : 0x1100 ≤ addr.toNat := hserial.1
    omega
  have hsame := horder _ hperm rfl rfl
  rw [hmachine] at hsame
  cases hmachine' : (ofList (serialSettings ++ screenSettings)).build.1 with
  | error e =>
    rw [hmachine'] at hsame
    exact hsame.elim
  | ok machine' =>
    rw [hmachine'] at hsame
    exact ⟨machine, machine', hperm, hmachine, rfl, hsame⟩

end Setup

end PagedMemory
