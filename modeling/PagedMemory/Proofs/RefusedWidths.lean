import PagedMemory.Proofs.ReadBack
import PagedMemory.Proofs.WalkTraces

/-!
# Accesses whose width is refused

The bus checks the width of an access, and a virtual access reaches the bus last. One whose width is
no word's is always refused, but it was translated before, and where marks are written back it may
leave them in the entries that it came through.

- `run_of_badWidth`: such an access is its translation, and an error;
- `LeavesMarks`: what it leaves;
- `access_badWidth`: every such access ends so.
-/

namespace PagedMemory

namespace Bus

variable {δ : Type} [Device δ] {len : Nat}

/-- The bus refuses the width before anything else. -/
theorem run_read_of_badWidth (h : ¬ Word.IsWidth len) (addr : UInt32) (bus : Bus δ) :
    (read addr len).run bus = ⟨.error (.badWidth len), bus, []⟩ :=
  run_read_of_refused (Ram.checkWord_eq_error_iff.2 (.inl ⟨h, rfl⟩))

theorem run_write_of_badWidth (h : ¬ Word.IsWidth len) (addr data : UInt32) (bus : Bus δ) :
    (write addr len data).run bus = ⟨.error (.badWidth len), bus, []⟩ :=
  run_write_of_refused (Ram.checkWord_eq_error_iff.2 (.inl ⟨h, rfl⟩)) data

end Bus

namespace Machine

variable {δ α : Type} [Device δ] {m : Machine δ} {regs : Registers} {access : Access}
  {vaddr : UInt32} {len : Nat}

/-- An access that the bus refuses for its width, in any state and at any address, has done no more
than its translation. -/
theorem run_of_badWidth {f : UInt32 → Op (Bus δ) α}
    (hf : ∀ p bus, (f p).run bus = ⟨.error (.badWidth len), bus, []⟩) (m : Machine δ) :
    (do checkCrossing vaddr len
        let p ← translate regs access vaddr
        onBus (f p) : Op (Machine δ) α).run m =
      if Page.Within vaddr len then
        let o := (translate regs access vaddr).run m
        ⟨o.result >>= fun _ => .error (.badWidth len), o.state, o.events⟩
      else ⟨.error (.crossesPage vaddr len), m, [.crossingRefused vaddr len]⟩ := by
  rw [Op.run_bind, checkCrossing]
  by_cases hw : Page.Within vaddr len
  · rw [if_pos hw, if_pos hw, Op.run_pure, Outcome.andThen_ok, Outcome.after_nil, Op.run_bind]
    rcases (translate regs access vaddr).run m with ⟨e | p, m', es⟩
    · rfl
    · rw [Outcome.andThen_ok, run_onBus, hf, Outcome.after_mk, List.append_nil]
      rfl
  · rw [if_neg hw, if_neg hw]
    rfl

/-- How an access ends that is refused for its width. Nothing changes if it crosses a page, or with
paging off, or where marks are dropped, or where the address leads nowhere; else what its
translation does. If no device serves the entries that are consulted, the marks are set there, and
that is all. -/
structure LeavesMarks (m : Machine δ) (regs : Registers) (access : Access) (vaddr : UInt32)
    (len : Nat) (o : Outcome (Machine δ) α) : Prop where
  error : ∃ e, o.result = .error e
  state : o.state = if Page.Within vaddr len then ((translate regs access vaddr).run m).state else m
  ram : o.state.bus.ram ≠ m.bus.ram → Page.Within vaddr len ∧ regs.pagingEnabled = true ∧
    m.tracking = .writeBack ∧ ∃ p, ((translate regs access vaddr).run m).result = .ok p
  byte : Page.Within vaddr len → ∀ p, m.bus.ram.target regs vaddr = .ok p →
    (∀ slot ∈ m.bus.ram.consulted regs vaddr, m.bus.Unclaimed slot) →
    ∀ b, o.state.bus.ram.byte b =
      m.bus.ram.byte b ||| m.bus.ram.marksAt regs m.tracking access vaddr b

theorem leavesMarks_of_badWidth {f : UInt32 → Op (Bus δ) α}
    (hf : ∀ p bus, (f p).run bus = ⟨.error (.badWidth len), bus, []⟩) (m : Machine δ)
    (regs : Registers) (access : Access) (vaddr : UInt32) :
    LeavesMarks m regs access vaddr len
      ((do checkCrossing vaddr len
           let p ← translate regs access vaddr
           onBus (f p) : Op (Machine δ) α).run m) := by
  rw [run_of_badWidth hf]
  by_cases hw : Page.Within vaddr len
  · rw [if_pos hw]
    refine ⟨?_, (if_pos hw).symm, ?_, ?_⟩
    · dsimp only
      rcases ((translate regs access vaddr).run m).result with e | p
      · exact ⟨e, rfl⟩
      · exact ⟨.badWidth len, rfl⟩
    · intro hne
      -- in each of the cases in which a translation stores nothing, RAM would be as it was
      have hstores : ¬ (regs.pagingEnabled = false ∨ m.tracking = .discard ∨
          ∃ e, ((translate regs access vaddr).run m).result = .error e) :=
        fun h => hne (Bus.translate_frame h).1
      refine ⟨hw, ?_, ?_, ?_⟩
      · cases hp : regs.pagingEnabled with
        | true => rfl
        | false => exact absurd (.inl hp) hstores
      · cases ht : m.tracking with
        | writeBack => rfl
        | discard => exact absurd (.inr (.inl ht)) hstores
      · cases hr : ((translate regs access vaddr).run m).result with
        | ok p => exact ⟨p, rfl⟩
        | error e => exact absurd (.inr (.inr ⟨e, hr⟩)) hstores
    · intro _ p htarget hfree b
      show ((translate regs access vaddr).run m).state.bus.ram.byte b = _
      rw [state_translate hfree htarget]
      exact Ram.byte_marked htarget m.tracking access b
  · rw [if_neg hw]
    exact ⟨⟨_, rfl⟩, (if_neg hw).symm, fun hne => absurd rfl hne, fun h => absurd h hw⟩

/-- An access of a width that no word has is refused, and at most it leaves marks. -/
theorem access_badWidth (m : Machine δ) (regs : Registers) (vaddr : UInt32) {len : Nat}
    (hlen : ¬ Word.IsWidth len) (data : UInt32) :
    LeavesMarks m regs .read vaddr len ((read regs vaddr len).run m) ∧
      LeavesMarks m regs .write vaddr len ((write regs vaddr len data).run m) :=
  ⟨leavesMarks_of_badWidth (Bus.run_read_of_badWidth hlen) m regs .read vaddr,
    leavesMarks_of_badWidth (fun p => Bus.run_write_of_badWidth hlen p data) m regs .write vaddr⟩

/-- A read of three bytes is refused, but not before it has marked the entry of its page. -/
theorem access_badWidth_selfNamed : ∃ ram : Ram,
    let m : Machine RegisterDevice := ⟨.ofRam ram, .writeBack⟩
    let o := (read (.paged 0x1000) 0x123 3).run m
    (¬ Word.IsWidth 3) ∧ o.result = .error (.badWidth 3) ∧
      ram.byte 0x1000 = 0x01 ∧ o.state.bus.ram.byte 0x1000 = 0x21 := by
  obtain ⟨ram, h⟩ := Ram.exists_selfNamed
  let m : Machine RegisterDevice := ⟨.ofRam ram, .writeBack⟩
  have hwidth : ¬ Word.IsWidth 3 := by decide
  have hw : Page.Within 0x123 3 := by decide
  have hdirectory : (Registers.paged 0x1000).directory = 0x1000 := by decide
  have htarget : ram.target (.paged 0x1000) 0x123 = .ok 0x1123 := by
    rw [Ram.target, if_pos (by decide), hdirectory, h.path_first]
  have hfree : ∀ slot ∈ ram.consulted (.paged 0x1000) 0x123, m.bus.Unclaimed slot :=
    fun _ _ _ hregion => absurd hregion List.not_mem_nil
  have hfirst : ram.byte 0x1000 = 0x01 := by
    rw [Ram.byte_eq_of_word, h.word _ (by decide)]
    decide
  have hmarks : ram.marksAt (.paged 0x1000) .writeBack .read 0x123 0x1000 = 0x20 := by
    rw [Ram.marksAt, if_pos (by decide), hdirectory, h.pde]
    decide
  have htranslate := (result_translate (m := m) hfree .read).trans htarget
  have hresult : ((read (.paged 0x1000) 0x123 3).run m).result = .error (.badWidth 3) := by
    rw [read, run_of_badWidth (Bus.run_read_of_badWidth hwidth), if_pos hw]
    dsimp only
    rw [htranslate]
    rfl
  obtain ⟨hread, -⟩ := access_badWidth m (.paged 0x1000) 0x123 hwidth 0
  refine ⟨ram, hwidth, hresult, hfirst, ?_⟩
  refine (hread.byte hw _ htarget hfree 0x1000).trans ?_
  rw [show m.bus.ram.byte 0x1000 = 0x01 from hfirst]
  exact (congrArg (0x01 ||| ·) hmarks).trans (by decide)

end Machine

end PagedMemory
