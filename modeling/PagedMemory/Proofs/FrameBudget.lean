import Mathlib.Data.Finset.Card
import Mathlib.Data.Finset.Dedup
import PagedMemory.Proofs.Mapping

/-!
# What mapping costs

A page that is mapped may need a table, and a table takes a frame. How many tables a list of pages
needs is told by the directory as it is before the first of them is mapped: one for each slot that
the pages share in and that names no table yet. The order of the pages has no part in it, nor has
where in a list the tables are opened.

- `Ram.missing`: the slots of a directory that need a table;
- `Layout.Takes`: the frames that were taken for some pages, down to the last one; what two parts of
  an operation take adds up (`Takes.trans`);
- `Layout.Short`: too few frames for some pages, which is the only reason to run out of them.
-/

namespace PagedMemory

namespace Pool

/-- The pool after `n` more frames. -/
def after (pool : Pool) (n : Nat) : Pool :=
  ⟨pool.next + Page.size * n, pool.limit, pool.allocated + n⟩

variable {pool : Pool}

@[simp] theorem after_zero (pool : Pool) : pool.after 0 = pool := rfl

theorem after_after (pool : Pool) (m n : Nat) : (pool.after m).after n = pool.after (m + n) := by
  simp only [after, Nat.mul_add, Nat.add_assoc]

theorem remaining_after (pool : Pool) (n : Nat) :
    (pool.after n).remaining = pool.remaining - n := by
  simp only [remaining, after, Page.size]
  omega

theorem hasNext_iff : pool.HasNext ↔ 0 < pool.remaining := remaining_pos_iff.symm

end Pool

namespace Ram

/-- Addresses that share a slot of the directory have one entry there. -/
theorem pde_of_directoryIndex {ram : Ram} {directory a b : UInt32}
    (h : Page.directoryIndex a = Page.directoryIndex b) :
    ram.pde directory a = ram.pde directory b := by
  rw [pde, pde, Entry.directorySlot, Entry.directorySlot, h]

/-- The slots of the directory that have a share in the pages, and name no table. -/
def missing (ram : Ram) (directory : UInt32) (pages : List UInt32) : Finset UInt32 :=
  ((pages.filter fun page => !(ram.pde directory page).has .present).map
    Page.directoryIndex).toFinset

variable {ram ram' : Ram} {directory page slot : UInt32} {pages more : List UInt32}

theorem mem_missing : slot ∈ ram.missing directory pages ↔ ∃ page ∈ pages,
    (ram.pde directory page).has .present = false ∧ Page.directoryIndex page = slot := by
  simp [missing, and_assoc]

theorem missing_singleton : ram.missing directory [page] =
    if (ram.pde directory page).has .present then ∅ else {Page.directoryIndex page} := by
  cases hp : (ram.pde directory page).has .present <;> simp [missing, hp]

theorem missing_mono (h : pages ⊆ more) :
    ram.missing directory pages ⊆ ram.missing directory more := by
  intro slot hs
  obtain ⟨page, hpage, hp, rfl⟩ := mem_missing.1 hs
  exact mem_missing.2 ⟨page, h hpage, hp, rfl⟩

/-- Each page needs at most one table. -/
theorem card_missing_le (ram : Ram) (directory : UInt32) (pages : List UInt32) :
    (ram.missing directory pages).card ≤ pages.length := by
  refine (List.toFinset_card_le _).trans ?_
  rw [List.length_map]
  exact List.length_filter_le _ _

/-- Once the first pages have their tables, the others need those that are missing still. -/
theorem card_missing_append (h : ∀ vaddr, (ram'.pde directory vaddr).has .present = true ↔
      (ram.pde directory vaddr).has .present = true ∨
        ∃ page ∈ pages, Page.directoryIndex vaddr = Page.directoryIndex page) :
    (ram.missing directory (pages ++ more)).card =
      (ram.missing directory pages).card + (ram'.missing directory more).card := by
  have hfalse : ∀ vaddr, (ram'.pde directory vaddr).has .present = false ↔
      (ram.pde directory vaddr).has .present = false ∧
        ∀ page ∈ pages, Page.directoryIndex vaddr ≠ Page.directoryIndex page := by
    intro vaddr
    rw [← Bool.not_eq_true, h vaddr, not_or, Bool.not_eq_true]
    push Not
    rfl
  have hdisjoint : Disjoint (ram.missing directory pages) (ram'.missing directory more) := by
    rw [Finset.disjoint_left]
    intro slot hs hs'
    obtain ⟨page, hpage, -, rfl⟩ := mem_missing.1 hs
    obtain ⟨page', -, hp', hslot⟩ := mem_missing.1 hs'
    exact ((hfalse page').1 hp').2 page hpage hslot
  rw [← Finset.card_union_of_disjoint hdisjoint]
  congr 1
  ext slot
  rw [Finset.mem_union, mem_missing, mem_missing, mem_missing]
  constructor
  · rintro ⟨page, hpage, hp, rfl⟩
    -- a slot that the first pages share is counted with them
    by_cases hshared : ∃ first ∈ pages, Page.directoryIndex page = Page.directoryIndex first
    · obtain ⟨first, hfirst, hslot⟩ := hshared
      exact .inl ⟨first, hfirst, by rw [← pde_of_directoryIndex hslot, hp], hslot.symm⟩
    · have hmore : page ∈ more := by
        rcases List.mem_append.1 hpage with hpage | hpage
        · exact absurd ⟨page, hpage, rfl⟩ hshared
        · exact hpage
      refine .inr ⟨page, hmore, (hfalse page).2 ⟨hp, ?_⟩, rfl⟩
      intro first hfirst hslot
      exact hshared ⟨first, hfirst, hslot⟩
  · rintro (⟨page, hpage, hp, rfl⟩ | ⟨page, hpage, hp, rfl⟩)
    · exact ⟨page, List.mem_append_left _ hpage, hp, rfl⟩
    · exact ⟨page, List.mem_append_right _ hpage, ((hfalse page).1 hp).1, rfl⟩

end Ram

namespace Layout

variable {spaces : List AddressSpace} {l l' l'' : Layout} {i m n : Nat} {space : AddressSpace}
  {directory vaddr : UInt32} {pages more : List UInt32} {e : Error}

/-! ## Frames that were taken -/

/-- `l'` comes from `l` by mapping the pages, each with a table: `n` frames were taken besides those
for the tables that were missing. -/
structure Takes (l : Layout) (directory : UInt32) (pages : List UInt32) (n : Nat)
    (l' : Layout) : Prop where
  pool : l'.pool = l.pool.after (n + (l.ram.missing directory pages).card)
  paid : n + (l.ram.missing directory pages).card ≤ l.pool.remaining
  /-- The pages have tables now, and no other slot got one. -/
  present : ∀ vaddr, (l'.ram.pde directory vaddr).has .present = true ↔
    (l.ram.pde directory vaddr).has .present = true ∨
      ∃ page ∈ pages, Page.directoryIndex vaddr = Page.directoryIndex page

/-- What two parts of an operation take adds up. -/
theorem Takes.trans (h : l.Takes directory pages m l') (h' : l'.Takes directory more n l'') :
    l.Takes directory (pages ++ more) (m + n) l'' where
  pool := by
    rw [h'.pool, h.pool, Pool.after_after, Ram.card_missing_append h.present]
    congr 1
    omega
  paid := by
    have hpaid := h'.paid
    have hfirst := h.paid
    rw [h.pool, Pool.remaining_after] at hpaid
    rw [Ram.card_missing_append h.present]
    omega
  present vaddr := by
    rw [h'.present, h.present, or_assoc]
    refine or_congr_right ?_
    simp only [List.mem_append, or_and_right, exists_or]

/-- Work that takes no frame and opens no table takes nothing. -/
theorem Takes.none (hpool : l'.pool = l.pool)
    (hp : ∀ vaddr, l'.ram.pde directory vaddr = l.ram.pde directory vaddr) :
    l.Takes directory [] 0 l' where
  pool := hpool
  paid := Nat.zero_le _
  present vaddr := by simp [hp]

/-- A page whose table is there takes nothing for it. -/
theorem Takes.there (hp : (l.ram.pde directory vaddr).has .present = true) :
    l.Takes directory [vaddr] 0 l where
  pool := by rw [Ram.missing_singleton, if_pos hp, Finset.card_empty, Nat.zero_add, Pool.after_zero]
  paid := by rw [Ram.missing_singleton, if_pos hp, Finset.card_empty]; exact Nat.zero_le _
  present vaddr' := by
    refine ⟨.inl, ?_⟩
    rintro (h | ⟨page, hpage, hslot⟩)
    · exact h
    · rw [List.mem_singleton.1 hpage] at hslot
      rw [Ram.pde_of_directoryIndex hslot, hp]

/-- A frame that is handed out takes one frame. -/
theorem Takes.grant (hn : l.pool.HasNext) (u : Use) : l.Takes directory [] 1 (l.grant u) where
  pool := rfl
  paid := Pool.hasNext_iff.1 hn
  present vaddr := by simp [Layout.grant]

/-- A table that is opened takes the frame that was missing. -/
theorem Valid.takes_openTable (hl : l.Valid spaces) (hi : spaces[i]? = some space)
    (hn : l.pool.HasNext) (hf : l.ram.HasFrame l.pool.fresh)
    (hp : (l.ram.pde space.directory vaddr).has .present = false) :
    l.Takes space.directory [vaddr] 0 (l.openTable i space.directory vaddr) where
  pool := by
    rw [Ram.missing_singleton, hp, pool_openTable]
    rfl
  paid := by
    rw [Ram.missing_singleton, hp]
    exact Pool.hasNext_iff.1 hn
  present vaddr' := by
    rw [hl.pde_openTable hn hf hi hi]
    by_cases hslot : Page.directoryIndex vaddr = Page.directoryIndex vaddr'
    · rw [if_pos ⟨rfl, hslot⟩, Entry.present_make hf.1]
      exact ⟨fun _ => .inr ⟨vaddr, List.mem_singleton_self _, hslot.symm⟩, fun _ => rfl⟩
    · rw [if_neg fun h => hslot h.2]
      refine ⟨.inl, ?_⟩
      rintro (h | ⟨page, hpage, hslot'⟩)
      · exact h
      · rw [List.mem_singleton.1 hpage] at hslot'
        exact absurd hslot'.symm hslot

theorem Valid.takes_setEntry (hl : l.Valid spaces) (hi : spaces[i]? = some space)
    (hp : (l.ram.pde space.directory vaddr).has .present = true) (frame : UInt32) :
    l.Takes space.directory [] 0 (l.setEntry space.directory vaddr frame) :=
  Takes.none rfl (hl.pde_setEntry hi hp hi)

/-! ## Frames that are not there -/

/-- The pool ran out, with too few frames for the pages: `n` of them are needed besides those for
the tables that are missing. -/
def Short (l : Layout) (directory : UInt32) (pages : List UInt32) (n : Nat) (e : Error) : Prop :=
  (∃ next limit, e = .outOfFrames next limit) ∧
    l.pool.remaining < n + (l.ram.missing directory pages).card

/-- What is too little for the rest is too little for the whole. -/
theorem Takes.short (h : l.Takes directory pages m l') (h' : l'.Short directory more n e) :
    l.Short directory (pages ++ more) (m + n) e := by
  obtain ⟨he, hlt⟩ := h'
  refine ⟨he, ?_⟩
  rw [h.pool, Pool.remaining_after] at hlt
  rw [Ram.card_missing_append h.present]
  omega

theorem Short.mono (h : l.Short directory pages m e) (hp : pages ⊆ more) (hm : m ≤ n) :
    l.Short directory more n e := by
  refine ⟨h.1, Nat.lt_of_lt_of_le h.2 (Nat.add_le_add hm ?_)⟩
  exact Finset.card_le_card (Ram.missing_mono hp)

/-- Frames that are left can be taken. -/
theorem Roomy.le_remaining (h : l.Roomy n) : n ≤ l.pool.remaining := by
  have hnext := h.2
  simp only [Page.size] at hnext
  rw [Pool.remaining, Page.size, Nat.le_div_iff_mul_le (by decide)]
  omega

/-- The pool does not run out as long as each page has a frame for its table. -/
theorem Short.not_roomy (h : l.Short directory pages n e) : ¬ l.Roomy (n + pages.length) := by
  intro hr
  have hle := hr.le_remaining
  have hcard := l.ram.card_missing_le directory pages
  have hlt := h.2
  omega

/-- No more was taken than one frame for each table. -/
theorem Takes.roomy (h : l.Takes directory pages n l') (hs : l'.ram.size = l.ram.size)
    (hr : l.Roomy (m + n + pages.length)) : l'.Roomy m := by
  have hcard := l.ram.card_missing_le directory pages
  have hr' := hr.mono (show m + (n + (l.ram.missing directory pages).card) ≤ _ by omega)
  rw [Roomy, hs, h.pool]
  refine ⟨hr'.1, ?_⟩
  have hnext := hr'.2
  rw [Nat.mul_add] at hnext
  show l.pool.next + Page.size * (n + (l.ram.missing directory pages).card) + Page.size * m ≤
    l.pool.limit
  omega

end Layout

end PagedMemory
