import PagedMemory.Proofs.Memory
import PagedMemory.Proofs.PairedMachines

/-!
# The pages of a space

In a valid layout the tables of a space and the pages that were taken for it are told by the use of
their frames. Here the walks of a guest meet the layout: they stay in the tables of the space, and
lead where the layout has the frame of the page.

- `IsTable`, `IsPage`: the two kinds of pages that a space has;
- `Valid.path_eq_ok_iff`: where a walk leads;
- `steady_ofRam`: a machine without devices has steady tables;
- `paired_ofRam`: without devices, tracking alone does not tell machines apart.
-/

namespace PagedMemory

namespace Layout

open Ram GuestCall

variable {spaces : List AddressSpace} {l : Layout} {i j : Nat} {space : AddressSpace}

/-- The page holds the directory or a table of the space `i`. -/
def IsTable (l : Layout) (i n : Nat) : Prop :=
  l.use n = some (.directory i) ∨ ∃ slot, l.use n = some (.table i slot)

/-- The page was taken for the contents of a page of the space `i`. -/
def IsPage (l : Layout) (i n : Nat) : Prop := ∃ k, l.use n = some (.page i k)

theorem IsPage.not_isTable {n : Nat} (h : l.IsPage i n) : ¬ l.IsTable j n := by
  obtain ⟨k, hk⟩ := h
  rintro (h | ⟨slot, h⟩)
  · rw [hk] at h
    cases h
  · rw [hk] at h
    cases h

theorem Valid.tablesIn (hl : l.Valid spaces) (hi : spaces[i]? = some space) :
    TablesIn (l.IsTable i) l.ram space.directory where
  aligned := (hl.hasDirectory i space hi).1
  top := .inl (hl.directory i space hi)
  table vaddr _ hp := .inr ⟨_, hl.table i space vaddr hi hp⟩

/-- The registers of a space name its directory. -/
theorem Valid.directory_paged (hl : l.Valid spaces) (hi : spaces[i]? = some space) :
    (Registers.paged space.cr3).directory = space.directory :=
  AddressSpace.directory_paged (hl.hasDirectory i space hi).1

/-- A walk under the registers of a space stays in its tables. -/
theorem Valid.tablesIn_paged (hl : l.Valid spaces) (hi : spaces[i]? = some space) :
    TablesIn (l.IsTable i) l.ram (Registers.paged space.cr3).directory := by
  rw [hl.directory_paged hi]
  exact hl.tablesIn hi

/-- A walk leads to the frame of the page, and nowhere else. -/
theorem Valid.path_eq_ok_iff (hl : l.Valid spaces) (hi : spaces[i]? = some space)
    {vaddr p : UInt32} : l.ram.path space.directory vaddr = .ok p ↔
      ∃ frame, l.ram.frame? space.directory vaddr = some frame ∧
        frame ||| Page.offset vaddr = p := by
  rw [← lookup_eq_some_iff, hl.lookup_eq hi, Except.ok.injEq, Option.map_eq_some_iff]

/-- A machine without devices has steady tables. -/
theorem steady_ofRam {δ : Type} (T : Nat → Prop) (ram : Ram) (tracking : Tracking) :
    Steady T ram (⟨.ofRam ram, tracking⟩ : Machine δ) :=
  ⟨AlikeOn.refl T ram, fun _ _ => rfl⟩

/-- Machines without devices that differ in tracking alone are paired. -/
theorem paired_ofRam {δ : Type} (T K : Nat → Prop) (ram : Ram) (tracking tracking' : Tracking) :
    Paired T K ram (⟨.ofRam ram, tracking⟩ : Machine δ) ⟨.ofRam ram, tracking'⟩ :=
  ⟨steady_ofRam _ _ _, steady_ofRam _ _ _, fun _ _ => rfl, rfl⟩

end Layout

namespace GuestCall

open Ram

variable {δ : Type} [Device δ] {T : Nat → Prop} {ram : Ram} {regs : Registers}

/-- A read of RAM. Without marks it changes nothing. -/
theorem run_read_discard (hs : TablesIn T ram regs.directory) (hp : regs.pagingEnabled = true)
    {vaddr p : UInt32} {len : Nat} (hpath : ram.path regs.directory vaddr = .ok p)
    (hw : Page.Within vaddr len) (hlen : Word.IsWidth len) (hfit : ram.Fits p len) :
    ∃ es, ((GuestCall.read vaddr len).perform regs).run (⟨.ofRam ram, .discard⟩ : Machine δ) =
      ⟨.ok (some (UInt32.ofNat (Word.ofBytes (ram.slice p.toNat len)))),
        ⟨.ofRam ram, .discard⟩, es⟩ := by
  have hread : (Bus.read p len).run (Bus.ofRam ram : Bus δ) = _ :=
    Bus.run_read_of_not_find (checkWord_eq_ok_iff.2 ⟨hlen, hfit⟩) rfl
  have hreach : (Machine.onBus (reach p (.read vaddr len))).run
      (⟨.ofRam ram, .discard⟩ : Machine δ) =
      ⟨.ok (some (UInt32.ofNat (Word.ofBytes (ram.slice p.toNat len)))),
        ⟨.ofRam ram, .discard⟩, []⟩ := by
    rw [Machine.run_onBus, show (reach p (.read vaddr len)).run (Bus.ofRam ram : Bus δ) = _ from
      Op.run_map_of_ok hread]
    rfl
  have hsteady := Layout.steady_ofRam (δ := δ) T ram .discard
  obtain ⟨es, hrun⟩ := hsteady.run_perform_of_path hs hp (.read vaddr len) hw hpath
  exact ⟨es ++ [], hrun.trans (congrArg (Outcome.after es) hreach)⟩

/-- Calls that change nothing are answered one by one. Induction on the calls. -/
theorem result_session_of_fixed {ι : Type} {f : ι → GuestCall}
    {answer : ι → Except Error (Option UInt32)} {m : Machine δ} (is : List ι)
    (h : ∀ i ∈ is, ∃ es, ((f i).perform regs).run m = ⟨answer i, m, es⟩) :
    ((session regs (is.map f)).run m).result = .ok (is.map answer) := by
  induction is with
  | nil => rfl
  | cons i is ih =>
    obtain ⟨es, hrun⟩ := h i List.mem_cons_self
    have hrest := ih fun j hj => h j (List.mem_cons_of_mem i hj)
    rw [List.map_cons, run_session_cons, hrun, hrest]
    rfl

end GuestCall

end PagedMemory
