import PagedMemory.Proofs.LoadBudgets
import PagedMemory.Proofs.LoadPrefixes

/-!
# An image in a space of its own

An image that is loaded into a new space is all that the space maps. A guest under the registers of
the space reads words of the image, and everywhere else gets an error; in no place does it read a
table, or what was in memory before.

- `loadNew_meets`: what loading into a new space leaves;
- `Sole.leads`: walks in the space end in pages of the image;
- `Sole.answer_of_onImage`, `Sole.answer_of_not_onImage`: what each word of the space answers;
- `Paired.read`: reads with marks answer the same, however many there are.
-/

namespace PagedMemory

namespace GuestCall

open Ram

variable {δ : Type} [Device δ] {T K : Nat → Prop} {ram : Ram} {regs : Registers} {m : Machine δ}
  {vaddr : UInt32} {len : Nat}

/-- A read without marks and devices changes nothing, whatever comes of it. -/
theorem state_read_discard (hs : TablesIn T ram regs.directory) (hp : regs.pagingEnabled = true) :
    (((GuestCall.read vaddr len).perform regs).run (⟨.ofRam ram, .discard⟩ : Machine δ)).state =
      ⟨.ofRam ram, .discard⟩ := by
  have hsteady : Steady T ram (⟨.ofRam ram, .discard⟩ : Machine δ) :=
    Layout.steady_ofRam T ram .discard
  rw [hsteady.run_perform hs hp]
  split
  · split
    · rfl
    · rename_i p hpath
      rw [Outcome.state_after, Machine.run_onBus]
      have hread : ((Bus.read p len).run (Bus.ofRam ram : Bus δ)).state = .ofRam ram := by
        cases hcheck : ram.checkWord p len with
        | error e => rw [Bus.run_read_of_refused hcheck]
        | ok => rw [Bus.run_read_of_not_find hcheck rfl]
      have hreach := (Op.state_map (some : UInt32 → Option UInt32) (Bus.read p len)
        (Bus.ofRam ram : Bus δ)).trans hread
      exact congrArg (fun bus => (⟨bus, .discard⟩ : Machine δ)) hreach
  · rfl

/-- A machine with marks answers a read like the one without, and stays paired with it. -/
theorem Paired.read (h : Paired T K ram (⟨.ofRam ram, .discard⟩ : Machine δ) m)
    (hK : ∀ n, K n → ¬ T n) (hs : TablesIn T ram regs.directory) (hp : regs.pagingEnabled = true)
    (hleads : (GuestCall.read vaddr len).Leads K ram regs) :
    ((Machine.read regs vaddr len).run m).result =
      ((Machine.read regs vaddr len).run (⟨.ofRam ram, .discard⟩ : Machine δ)).result ∧
    Paired T K ram (⟨.ofRam ram, .discard⟩ : Machine δ)
      ((Machine.read regs vaddr len).run m).state := by
  obtain ⟨hresult, -, hpaired⟩ := h.perform hK hs hp hleads
  rw [state_read_discard hs hp] at hpaired
  constructor
  · exact Op.result_of_map_some hresult
  · have hstate := Op.state_map (some : UInt32 → Option UInt32) (Machine.read regs vaddr len) m
    rw [← hstate]
    exact hpaired

end GuestCall

namespace Loader

open Layout

variable {φ : Type} [FileStore φ] {P : φ → Prop} {name : String} {c : FileContract φ P name}
  {l : Layout} {space : AddressSpace} {loader : Loader} {image : Image} {data : Array UInt8}
  {vaddr : UInt32}

/-- Loads the file of this name into a new address space. -/
def loadNew {α : Type} [FrameSource α] (loader : Loader) (name : String) :
    Op (φ × Ram × α) (AddressSpace × Image) := do
  let space ← .snd AddressSpace.create
  let image ← loader.load space name
  pure (space, image)

/-- The image is in place in the only space, and the space maps nothing else. -/
structure Sole (c : FileContract φ P name) (loader : Loader) (space : AddressSpace) (image : Image)
    (l : Layout) : Prop extends Loaded c loader 0 space image l where
  valid : l.Valid [space]
  mapped : ∀ vaddr frame, l.ram.frame? space.directory vaddr = some frame →
    loader.Covers (Page.count image.size) (Page.number vaddr) ∧
      l.use (Page.number frame) = some (.page 0 (Page.number vaddr))

/-- The pages follow each other from the base on. -/
theorem Loaded.vaddrs (h : Loaded c loader 0 space image l) :
    image.pages.map (·.vaddr) = loader.addresses (Page.count image.size) := by
  apply List.ext_getElem
  · rw [List.length_map, length_addresses, h.length]
  · intro k hk _
    rw [List.length_map] at hk
    have hvaddr := (h.placed k _ (List.getElem?_eq_getElem hk)).1
    simp only [List.getElem_map, hvaddr, addresses, List.getElem_range]

/-- What is loaded into a space that maps nothing is all that it maps. -/
theorem InPlace.sole {l' : Layout}
    (h : InPlace c loader [space] 0 space l (Page.count image.size) image.pages l')
    (hloaded : Loaded c loader 0 space image l')
    (hnone : ∀ vaddr, l.ram.frame? space.directory vaddr = none) :
    Sole c loader space image l' where
  toLoaded := hloaded
  valid := h.valid
  mapped vaddr frame hf := by
    constructor
    · by_contra hout
      have hsame := h.frame 0 space vaddr rfl fun _ => hout
      rw [hf, hnone] at hsame
      cases hsame
    · rcases h.owned vaddr frame hf with hbefore | hu
      · rw [hnone] at hbefore
        cases hbefore
      · exact hu

/-- A file is loaded into a new space of an empty memory, or something is missing. -/
theorem loadNew_meets (c : FileContract φ P name) (loader : Loader) (hl : l.Valid []) :
    Op.Meets (fun s => P s.1 ∧ s.2 = l.state) (loader.loadNew name)
      (fun loaded s => ∃ l', s.2 = l'.state ∧ Sole c loader loaded.1 loaded.2 l')
      (fun _ _ => ¬ (l.Roomy 1 ∧ Enough c loader (l.openDirectory 0))) := by
  refine Op.Meets.snd_bind (AddressSpace.create_meets hl) ?_ ?_
  · rintro space _ ⟨hn, hf, rfl, rfl⟩
    have hvalid : (l.openDirectory 0).Valid [⟨l.pool.fresh⟩] := hl.openDirectory hn hf
    refine Op.Meets.bind ((load_inPlace c hvalid (i := 0) rfl).onError ?_) fun image =>
      Op.Meets.pure ?_
    · intro e s hstopped hroom
      exact (hstopped.partlyLoaded hvalid rfl).1 hroom.2
    · rintro s ⟨l', hs, hplaced, hloaded⟩
      exact ⟨l', hs, hplaced.sole hloaded (frame?_openDirectory_fresh hf 0)⟩
  · intro e files s _ hno hroom
    exact hno.not_roomy hl hroom.1

/-! ## Reading the space -/

/-- A word at this address lies on one page of an image of `size` bytes. -/
def OnImage (loader : Loader) (size : Nat) (vaddr : UInt32) : Prop :=
  loader.base.toNat ≤ vaddr.toNat ∧ vaddr.toNat < loader.base.toNat + Page.roundUp size ∧
    Page.Within vaddr 4

instance (loader : Loader) (size : Nat) (vaddr : UInt32) :
    Decidable (loader.OnImage size vaddr) :=
  inferInstanceAs (Decidable (_ ∧ _ ∧ _))

/-- What the word at an address answers where walks leave no marks. -/
def answer (ram : Ram) (regs : Registers) (vaddr : UInt32) : Except Error UInt32 :=
  ((Machine.read regs vaddr 4).run (⟨.ofRam ram, .discard⟩ : Machine Empty)).result

/-- Walks in the space end in pages that were taken for the image. -/
theorem Sole.leads (h : Sole c loader space image l) (vaddr : UInt32) (len : Nat) :
    (GuestCall.read vaddr len).Leads (l.IsPage 0) l.ram (.paged space.cr3) := by
  intro p hpath
  rw [h.valid.directory_paged (i := 0) rfl] at hpath
  obtain ⟨frame, hf, rfl⟩ := (h.valid.path_eq_ok_iff (i := 0) rfl).1 hpath
  refine ⟨Page.number vaddr, ?_⟩
  rw [(Ram.aligned_of_frame? hf).number_or_offset]
  exact (h.mapped _ _ hf).2

/-- On the image a word is that of the file, with zeros behind the end. -/
theorem Sole.answer_of_onImage (h : Sole c loader space image l)
    (hc : ∀ k bytes, c.chunk k bytes → bytes = Ramdisk.chunk data k)
    (hsize : image.size = data.size) (hbase : Page.Aligned loader.base)
    (hv : loader.OnImage data.size vaddr) :
    answer l.ram (.paged space.cr3) vaddr =
      .ok (paddedWord data (vaddr.toNat - loader.base.toNat) 4) := by
  obtain ⟨hlow, hhigh, hwithin⟩ := hv
  have hlen : image.pages.length = Page.count data.size := by rw [h.length, hsize]
  have hb := h.bound
  rw [hsize, Page.roundUp, ← hlen] at hb
  rw [Page.roundUp, ← hlen, Page.size] at hhigh
  have hplaced : Placed (Ramdisk.contract name data) loader 0 space image.pages l :=
    h.placed.of_chunk hc
  have hvaddr : loader.base + UInt32.ofNat (vaddr.toNat - loader.base.toNat) = vaddr := by
    have hlt := vaddr.toNat_lt
    rw [← UInt32.toNat_inj, UInt32.toNat_add, UInt32.toNat_ofNat']
    omega
  have hin : (vaddr.toNat - loader.base.toNat) % 4096 + 4 ≤ 4096 := by
    have ha := Page.aligned_iff.1 hbase
    rcases Page.within_iff.1 hwithin with h4 | h4
    · cases h4
    · omega
  obtain ⟨es, hrun⟩ := hplaced.run_read (δ := Empty) hb hbase h.valid rfl hlen
    (show Word.IsWidth 4 by decide) hin (by omega)
  rw [hvaddr] at hrun
  exact Op.result_of_map_eq (congrArg Outcome.result hrun)

/-- Anywhere else there is none. -/
theorem Sole.answer_of_not_onImage (h : Sole c loader space image l)
    (hbase : Page.Aligned loader.base) (hv : ¬ loader.OnImage image.size vaddr) :
    ∃ e, answer l.ram (.paged space.cr3) vaddr = .error e := by
  have hsteady : GuestCall.Steady (l.IsTable 0) l.ram
      (⟨.ofRam l.ram, .discard⟩ : Machine Empty) := steady_ofRam _ _ _
  have hrun := hsteady.run_perform (h.valid.tablesIn_paged (i := 0) rfl)
    (Registers.pagingEnabled_paged _) (.read vaddr 4)
  split at hrun
  · rename_i hwithin
    split at hrun
    · exact ⟨_, Op.result_of_map_eq (congrArg Outcome.result hrun)⟩
    · -- a page that is mapped is one of the image
      rename_i p hpath
      rw [h.valid.directory_paged (i := 0) rfl] at hpath
      obtain ⟨frame, hf, -⟩ := (h.valid.path_eq_ok_iff (i := 0) rfl).1 hpath
      obtain ⟨hlow, hhigh⟩ := (covers_number_iff hbase).1 (h.mapped vaddr _ hf).1
      refine absurd ⟨hlow, ?_, hwithin⟩ hv
      rw [Page.roundUp, Page.size]
      omega
  · exact ⟨_, Op.result_of_map_eq (congrArg Outcome.result hrun)⟩

end Loader

end PagedMemory
