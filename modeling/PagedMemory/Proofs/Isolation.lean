import PagedMemory.Proofs.Hosts
import PagedMemory.Proofs.LoadedImages

/-!
# Programs are isolated

A guest in one space of a host reaches its own tables and its own pages alone. So a guest in another
space does not notice it: what that one reads, and where its addresses lead, stays as it was.

- `Confined.session`: all that the calls of a guest can change;
- `Confined.paired`: to another space the machine is the same as before;
- `isolation`: one guest makes calls, and the other one reads.
-/

namespace PagedMemory

namespace Layout

open Ram

variable {spaces : List AddressSpace} {l : Layout} {i j n : Nat} {space : AddressSpace}

theorem IsTable.not_isTable (h : l.IsTable j n) (hij : i ≠ j) : ¬ l.IsTable i n := by
  rintro (h' | ⟨slot', h'⟩)
  · rcases h with h | ⟨slot, h⟩
    · rw [h] at h'
      cases h'
      exact hij rfl
    · rw [h] at h'
      cases h'
  · rcases h with h | ⟨slot, h⟩
    · rw [h] at h'
      cases h'
    · rw [h] at h'
      cases h'
      exact hij rfl

theorem IsPage.not_isPage (h : l.IsPage j n) (hij : i ≠ j) : ¬ l.IsPage i n := by
  obtain ⟨k, hk⟩ := h
  rintro ⟨k', hk'⟩
  rw [hk] at hk'
  cases hk'
  exact hij rfl

/-- The registers of a private space lead to its own pages alone. -/
theorem Private.leads (hp : l.Private i space) (hl : l.Valid spaces) (hi : spaces[i]? = some space)
    (call : GuestCall) : call.Leads (l.IsPage i) l.ram (.paged space.cr3) := by
  intro p hpath
  rw [hl.directory_paged hi, hl.path_eq_ok_iff hi] at hpath
  obtain ⟨frame, hf, rfl⟩ := hpath
  refine ⟨Page.number call.vaddr, ?_⟩
  rw [(aligned_of_frame? hf).number_or_offset]
  exact hp call.vaddr frame hf

end Layout

namespace GuestCall

open Layout Ram

variable {δ : Type} [Device δ] {spaces : List AddressSpace} {l : Layout} {i j : Nat}
  {space other : AddressSpace} {m : Machine δ}

omit [Device δ] in
/-- The machine has the RAM of the layout, but for the marks in the tables of the space `i`, and for
the contents of its pages. -/
structure Confined (l : Layout) (i : Nat) (m : Machine δ) : Prop where
  steady : Steady (l.IsTable i) l.ram m
  byte : ∀ b, ¬ l.IsTable i (b / 4096) → ¬ l.IsPage i (b / 4096) →
    m.bus.ram.byte b = l.ram.byte b
  table : m.bus.table = .empty

/-- A call under the registers of a private space changes no more than that. -/
theorem Confined.perform (h : Confined l i m) (hl : l.Valid spaces) (hi : spaces[i]? = some space)
    (hp : l.Private i space) (call : GuestCall) :
    Confined l i ((call.perform (.paged space.cr3)).run m).state := by
  have hleads := hp.leads hl hi call
  obtain ⟨hsteady, hbyte, htable⟩ := h.steady.perform (hl.tablesIn_paged hi)
    (Registers.pagingEnabled_paged _) fun p hpath => (hleads p hpath).not_isTable
  refine ⟨hsteady, ?_, htable h.table⟩
  intro b hb hb'
  rw [hbyte b hb, h.byte b hb hb']
  rintro p hpath hpage
  exact hb' (hpage ▸ hleads p hpath)

/-- Nor does any number of calls. Induction on the calls. -/
theorem Confined.session (hl : l.Valid spaces) (hi : spaces[i]? = some space)
    (hp : l.Private i space) (calls : List GuestCall) (h : Confined l i m) :
    Confined l i ((session (.paged space.cr3) calls).run m).state := by
  induction calls generalizing m with
  | nil => exact h
  | cons call calls ih =>
    rw [run_session_cons]
    exact ih (h.perform hl hi hp call)

omit [Device δ] in
/-- Another space has the same tables and the same pages as before. -/
theorem Confined.paired (h : Confined l i m) (hij : i ≠ j) (tracking : Tracking) :
    Paired (l.IsTable j) (l.IsPage j) l.ram ⟨.ofRam l.ram, tracking⟩ m := by
  -- what is a table or a page of `j` is neither a table nor a page of `i`
  refine ⟨steady_ofRam _ _ _, ⟨?_, ?_⟩, ?_, h.table⟩
  · refine (AlikeOn.refl _ _).congr h.steady.alike.size ?_
    intro b hb
    exact h.byte b (hb.not_isTable hij) fun hpage => hpage.not_isTable hb
  · rw [h.table]
    exact fun _ _ => rfl
  · intro b hb
    exact h.byte b hb.not_isTable (hb.not_isPage hij)

end GuestCall

namespace Host

open Layout

variable {δ : Type} [Device δ]

/-- Whatever a guest does in one space of a host, in another space every read ends as it would have
ended before, and every address leads where it led. -/
theorem isolation (ram : Ram) (tracking : Tracking) (range : Range) (calls : List HostCall)
    {i j : Nat} (hij : i ≠ j) {a b : AddressSpace}
    (ha : ((start ram tracking range : Host δ).run calls).spaces[i]? = some a)
    (hb : ((start ram tracking range : Host δ).run calls).spaces[j]? = some b)
    (guest : List GuestCall) :
    let m := ((start ram tracking range : Host δ).run calls).machine
    let m' := ((GuestCall.session (.paged a.cr3) guest).run m).state
    (∀ vaddr len, ((Machine.read (.paged b.cr3) vaddr len).run m').result =
      ((Machine.read (.paged b.cr3) vaddr len).run m).result) ∧
    ∀ vaddr, b.lookup m'.bus.ram vaddr = b.lookup m.bus.ram vaddr := by
  obtain ⟨l, spaces, hrun, hl, hp⟩ := run_separated (δ := δ) ram tracking range calls
  rw [hrun] at ha hb ⊢
  -- the other guest reads on both machines, the one before the session and the one after it
  have hstart : GuestCall.Confined l i (⟨.ofRam l.ram, tracking⟩ : Machine δ) :=
    ⟨steady_ofRam _ _ _, fun _ _ _ => rfl, rfl⟩
  have hpaired := (hstart.session hl ha (hp i a ha) guest).paired hij tracking
  constructor
  · intro vaddr len
    obtain ⟨hresult, -⟩ := hpaired.perform (fun _ hn => hn.not_isTable) (hl.tablesIn_paged hb)
      (Registers.pagingEnabled_paged _) ((hp j b hb).leads hl hb (.read vaddr len))
    exact Op.result_of_map_some hresult
  · exact Ram.lookup_eq_of_alikeOn (hl.tablesIn hb) hpaired.right.alike

/-- Two spaces with the same file at the same address. -/
def twoPrograms : List HostCall :=
  [.create, .create, .load 0 .standard Loader.smallDisk "init",
    .load 1 .standard Loader.smallDisk "init"]

omit [Device δ] in
theorem exists_twoPrograms : ∃ (ram : Ram) (l : Layout) (a b : AddressSpace),
    (start ram .writeBack ⟨0, 65536⟩ : Host δ).run twoPrograms = ofLayout l [a, b] .writeBack ∧
    (∃ p, a.lookup l.ram 0x08048000 = .ok (some p)) ∧
    ∃ p, b.lookup l.ram 0x08048000 = .ok (some p) := by
  obtain ⟨zero, hzero⟩ : ∃ zero, Ram.zeroed 65536 = .ok zero := ⟨_, rfl⟩
  -- two frames for the directories, and two for each load
  have hroom : (Layout.start zero ⟨0, 65536⟩).Roomy 6 :=
    roomy_start (by rw [Ram.size_of_zeroed hzero]; decide) (by decide)
  obtain ⟨l₁, a, h₁, hl₁, hroom₁⟩ := Memory.create_of_roomy (valid_start zero ⟨0, 65536⟩) hroom
  obtain ⟨l₂, b, h₂, hl₂, hroom₂⟩ := Memory.create_of_roomy hl₁ hroom₁
  obtain ⟨l₃, image, h₃, hloads, ⟨-, hsize, -, hlen, hplaced⟩, hroom₃⟩ :=
    Memory.load_of_enough (i := 0) _ hl₂ rfl (Loader.enough_smallDisk (hroom₂.mono (by decide)))
      Loader.contents?_smallDisk
  have hsize : image.size = 3 := hsize
  rw [hsize] at hroom₃ hlen
  obtain ⟨l₄, image', h₄, hloads', ⟨-, hsize', -, hlen', hplaced'⟩, -⟩ :=
    Memory.load_of_enough (i := 1) _ hloads.valid rfl (Loader.enough_smallDisk (hroom₃ 2 hroom₂))
      Loader.contents?_smallDisk
  have hsize' : image'.size = 3 := hsize'
  rw [hsize'] at hlen'
  refine ⟨zero, l₄, a, b, ?_, ?_, Loader.lookup_smallDisk hplaced' hlen' hloads'.valid rfl⟩
  · rw [twoPrograms, run_cons, run_cons, run_cons, run_cons, start_eq_ofLayout,
      HostCall.state_ofLayout .create (by rw [HostCall.onMemory, Call.perform, Edit.perform, h₁]),
      HostCall.state_ofLayout .create (by rw [HostCall.onMemory, Call.perform, Edit.perform, h₂]),
      HostCall.state_ofLayout (.load ..) (by rw [HostCall.onMemory, Call.state_load]; exact h₃),
      HostCall.state_ofLayout (.load ..) (by rw [HostCall.onMemory, Call.state_load]; exact h₄)]
    rfl
  · -- the second load is work in another space, so the first image stays in place
    have hplaced := hplaced.evolves hloads.valid rfl hloads'.toEvolves (by decide)
    exact Loader.lookup_smallDisk hplaced hlen hloads'.valid rfl

/-- One guest writes to its file, and the other one reads what it would have read before. -/
theorem isolation_twoPrograms : ∃ (ram : Ram) (a b : AddressSpace),
    let m := ((start ram .writeBack ⟨0, 65536⟩ : Host RegisterDevice).run twoPrograms).machine
    let m' := ((GuestCall.session (.paged a.cr3) [.write 0x08048000 4 7]).run m).state
    (∃ p, a.lookup m.bus.ram 0x08048000 = .ok (some p)) ∧
    (∃ p, b.lookup m.bus.ram 0x08048000 = .ok (some p)) ∧
    ((Machine.read (.paged b.cr3) 0x08048000 4).run m').result =
      ((Machine.read (.paged b.cr3) 0x08048000 4).run m).result := by
  obtain ⟨ram, l, a, b, hrun, hfirst, hsecond⟩ := exists_twoPrograms (δ := RegisterDevice)
  obtain ⟨hread, -⟩ := isolation (δ := RegisterDevice) ram .writeBack ⟨0, 65536⟩ twoPrograms
    (i := 0) (j := 1) (a := a) (b := b) (by decide) (by rw [hrun]; rfl) (by rw [hrun]; rfl)
    [.write 0x08048000 4 7]
  refine ⟨ram, a, b, ?_, ?_, hread 0x08048000 4⟩
  · rw [hrun]
    exact hfirst
  · rw [hrun]
    exact hsecond

end Host

end PagedMemory
