import PagedMemory.Proofs.PageContents
import PagedMemory.Proofs.SpaceContracts

/-!
# Contracts of loading

Loading takes turns with three things: it takes frames, maps pages, and reads a file. What it does
to memory is the same whatever the file store does; what the pages hold in the end depends on what
the store promises. A `FileContract` is such a promise, from none at all to the exact bytes.

- `loadPage_meets`: one page gets a frame of its own, with the next bytes of the file;
- `InPlace`: what holds after each round of the loop, so that no page disturbs an earlier one;
- `Stopped`: what a load leaves that fails, from before its first page to after its last;
- `load_inPlace`: a load ends in one of these two ways;
- `load_meets`: the same for those to whom only the pages matter that a load may touch;
- `load_of_enough`: a load does not fail for nothing.
-/

namespace PagedMemory

/-- What a store answers about the file `name` from the states that satisfy `P`. -/
structure FileContract (φ : Type) [FileStore φ] (P : φ → Prop) (name : String) where
  /-- No call fails. -/
  reliable : Prop
  /-- The file is open under a descriptor, and some number of pages were read from it. -/
  reading : Nat → Nat → φ → Prop
  /-- The sizes that may be reported. -/
  size : Nat → Prop
  /-- The bytes that may be read of each page. -/
  chunk : Nat → List UInt8 → Prop
  openName : Op.Meets P (FileStore.openName name) (fun fd => reading fd 0) (fun _ _ => ¬ reliable)
  sizeAt : ∀ fd, Op.Meets (reading fd 0) (FileStore.sizeAt fd)
    (fun n s => size n ∧ reading fd 0 s) (fun _ _ => ¬ reliable)
  readAt : ∀ fd k, Op.Meets (reading fd k) (FileStore.readAt fd Page.size)
    (fun bytes s => chunk k bytes ∧ reading fd (k + 1) s) (fun _ _ => ¬ reliable)
  closeAt : ∀ fd k, Op.Meets (reading fd k) (FileStore.closeAt fd) (fun _ _ => True)
    (fun _ _ => ¬ reliable)

/-- Nothing is known of an arbitrary store. -/
def FileContract.any (φ : Type) [FileStore φ] (name : String) :
    FileContract φ (fun _ => True) name where
  reliable := False
  reading _ _ _ := True
  size _ := True
  chunk _ _ := True
  openName := (Op.Meets.any _).onError fun _ _ _ => not_false
  sizeAt _ := (Op.Meets.any _).weaken (fun _ h => h) (fun _ _ _ => ⟨trivial, trivial⟩)
    fun _ _ _ => not_false
  readAt _ _ := (Op.Meets.any _).weaken (fun _ h => h) (fun _ _ _ => ⟨trivial, trivial⟩)
    fun _ _ _ => not_false
  closeAt _ _ := (Op.Meets.any _).onError fun _ _ _ => not_false

namespace Layout

variable {spaces : List AddressSpace} {l : Layout} {i : Nat} {space : AddressSpace}

/-- A frame of the pool is taken for a purpose, if there is one. -/
theorem allocate_meets (l : Layout) (directory : UInt32) (u : Use) :
    Op.Meets (· = l.state) (.snd FrameSource.allocate)
      (fun frame s => l.pool.HasNext ∧ frame = l.pool.fresh ∧ s = (l.grant u).state)
      (fun e s => l.Short directory [] 1 e ∧ s = l.state) := by
  rintro _ rfl
  by_cases hn : l.pool.HasNext
  · rw [state, Op.run_snd, Pool.run_allocate_of_hasNext hn]
    exact ⟨hn, rfl, rfl⟩
  · rw [state, Op.run_snd, Pool.run_allocate_of_not_hasNext hn]
    refine ⟨⟨⟨_, _, rfl⟩, ?_⟩, rfl⟩
    rw [Pool.hasNext_iff] at hn
    exact Nat.lt_of_not_le hn

/-- Bytes that fill a frame are written to it. -/
theorem writeFrame_meets {frame : UInt32} (hf : l.ram.HasFrame frame) {bytes : List UInt8}
    (hb : bytes.length = Page.size) :
    Op.Meets (· = l.state) (.fst (Ram.writeFrame frame bytes))
      (fun _ s => s = (l.fill frame bytes).state) (fun _ _ => False) := by
  rintro _ rfl
  have hc : l.ram.checkFrame frame = .ok () := Ram.checkFrame_eq_ok_iff.2 hf
  have hrun : (Ram.writeFrame frame bytes).run l.ram =
      ⟨.ok (), l.ram.store frame.toNat bytes, []⟩ := by
    rw [Ram.writeFrame, ← hb, List.take_length, Op.run_amend_ok]
    exact hc
  rw [state, Op.run_fst, hrun]
  rfl

end Layout

namespace Loader

open Layout

variable {φ : Type} [FileStore φ] {P : φ → Prop} {name : String} {spaces : List AddressSpace}
  {l l' : Layout} {i : Nat} {space : AddressSpace} {loader : Loader} {vaddr frame : UInt32}

/-! ## One page -/

/-- The frame of a page that was just mapped is filled with the next bytes of the file. -/
theorem fillPage_meets (c : FileContract φ P name) (hi : spaces[i]? = some space) (fd k : Nat)
    (hev : Evolves spaces i (· = Page.number vaddr) l l') (hg : ¬ l.pool.Gave (Page.number frame))
    (hu : l'.use (Page.number frame) = some (.page i (Page.number vaddr)))
    (hm : l'.ram.frame? space.directory vaddr = some frame) :
    Op.Meets (fun s => c.reading fd k s.1 ∧ s.2 = l'.state)
      (do .query fun (_, ram, _) => ram.checkFrame frame
          let bytes ← .fst (FileStore.readAt fd Page.size)
          .snd (.fst (Ram.writeFrame frame (padded Page.size bytes)))
          .report (.pageLoaded vaddr frame)
          pure ⟨vaddr, frame⟩ : Op (φ × Ram × Pool) PageMapping)
      (fun page s => c.reading fd (k + 1) s.1 ∧ page.vaddr = vaddr ∧ l'.ram.HasFrame frame ∧
        ∃ bytes, s.2 = (l'.fill frame (padded Page.size bytes)).state ∧ c.chunk k bytes ∧
        Loads spaces i space (· = Page.number vaddr) l (l'.fill frame (padded Page.size bytes)) ∧
        (l'.fill frame (padded Page.size bytes)).Holds i space page (padded Page.size bytes))
      (fun _ s => ¬ (c.reliable ∧ l'.ram.HasFrame frame) ∧ s.2 = l'.state) := by
  -- the frame is looked at before the file is read, so that no bytes are read in vain
  refine Op.Meets.query_bind (p := fun _ => l'.ram.HasFrame frame) ?_ ?_ ?_
  · rintro ⟨files, _⟩ u ⟨-, rfl⟩ hc
    exact Ram.checkFrame_eq_ok_iff.1 hc
  · intro _ hf
    refine Op.Meets.fst_bind (c.readAt fd k) ?_ ?_
    · intro bytes
      refine Op.Meets.of_imp (fun s hs => hs.1.1) ?_
      intro hchunk
      refine Op.Meets.onStart (P := fun s => c.reading fd (k + 1) s.1 ∧ s.2 = l'.state) ?_
        fun s hs => ⟨hs.1.2, hs.2⟩
      have hlen : (padded Page.size bytes).length = Page.size := length_padded _ _
      refine Op.Meets.snd_bind (writeFrame_meets hf hlen) ?_ (fun _ _ _ _ h => h.elim)
      rintro _ _ rfl
      refine Op.Meets.report_bind (Op.Meets.pure ?_)
      rintro s ⟨hr, hs⟩
      have hholds : (l'.fill frame (padded Page.size bytes)).Holds i space ⟨vaddr, frame⟩
          (padded Page.size bytes) := holds_fill hev.valid hi hf hlen hu hm
      have hfill : Evolves spaces i (· = Page.number vaddr) l
          (l'.fill frame (padded Page.size bytes)) := hev.fill hf hlen hu hg
      have hloads := hfill.loads_of_mapped hi hg hholds.use hholds.mapped
      exact ⟨hr, rfl, hf, bytes, hs, hchunk, hloads, hholds⟩
    · intro _ files hn
      exact ⟨fun h => hn h.1, rfl⟩
  · rintro ⟨files, _⟩ e ⟨-, rfl⟩ (hc : l'.ram.checkFrame frame = .error e)
    refine ⟨?_, rfl⟩
    intro h
    rw [Ram.checkFrame_eq_ok_iff.2 h.2] at hc
    cases hc

/-- A page gets a frame of its own, with the next bytes of the file. From a store that does not fail
it gets one unless a frame is missing for it or for its table. -/
theorem loadPage_meets (c : FileContract φ P name) (hl : l.Valid spaces)
    (hi : spaces[i]? = some space) (fd k : Nat) (vaddr : UInt32) :
    Op.Meets (fun s => c.reading fd k s.1 ∧ s.2 = l.state) (loadPage space fd vaddr)
      (fun page s => c.reading fd (k + 1) s.1 ∧ page.vaddr = vaddr ∧ ∃ l' bytes, s.2 = l'.state ∧
        Loads spaces i space (· = Page.number vaddr) l l' ∧ c.chunk k bytes ∧
        l'.Holds i space page (padded Page.size bytes) ∧ l.Takes space.directory [vaddr] 1 l')
      (fun e s => (c.reliable → Page.Aligned vaddr → l.pool.limit ≤ l.ram.size →
          l.Short space.directory [vaddr] 1 e) ∧
        ∃ l', s.2 = l'.state ∧ Loads spaces i space (· = Page.number vaddr) l l') := by
  refine Op.Meets.snd_bind
    (allocate_meets l space.directory (.page i (Page.number vaddr))) ?_ ?_
  · rintro frame _ ⟨hn, rfl, rfl⟩
    -- taking the frame touches no page, and mapping it touches the one page
    have hgrant : Evolves spaces i (fun _ => False) l (l.grant (.page i (Page.number vaddr))) :=
      hl.evolves_grant hn _
    have htakes : l.Takes space.directory [] 1 (l.grant (.page i (Page.number vaddr))) :=
      Takes.grant hn _
    refine Op.Meets.snd_bind (AddressSpace.map_takes hgrant.valid hi vaddr l.pool.fresh) ?_ ?_
    · rintro _ _ ⟨l', rfl, hmap, hframe, htakes'⟩
      have hev : Evolves spaces i (· = Page.number vaddr) l l' :=
        (hgrant.mono fun _ => False.elim).trans hmap
      have hu : l'.use (Page.number l.pool.fresh) = some (.page i (Page.number vaddr)) :=
        hmap.use _ _ (use_grant_self _ _)
      have hg := hl.sound.not_gave_fresh hn
      refine (fillPage_meets c hi fd k hev hg hu hframe).weaken (fun _ h => h) ?_ ?_
      · rintro page s ⟨hr, hv, hf, bytes, hs, hchunk, hloads, hholds⟩
        refine ⟨hr, hv, _, bytes, hs, hloads, hchunk, hholds, ?_⟩
        have hfill : l'.Takes space.directory [] 0
            (l'.fill l.pool.fresh (padded Page.size bytes)) :=
          Takes.none rfl (hev.valid.pde_fill hf (length_padded _ _) hu hi)
        exact (htakes.trans htakes').trans hfill
      · -- the page stays mapped to its frame, with the bytes that happened to be there
        rintro _ s ⟨hn', hs⟩
        refine ⟨?_, l', hs, hev.loads_of_mapped hi hg hu hframe⟩
        intro hreliable _ hsize
        have hroom : l.Roomy 1 := ⟨hsize, hn⟩
        exact absurd ⟨hreliable, (hroom.hasFrame hl.sound).of_size hev.size⟩ hn'
    · -- the page was not mapped, and its frame is lost
      rintro _ files s - ⟨hshort, l', hs, -, hev⟩
      refine ⟨?_, l', hs, (hgrant.trans hev).loads hi⟩
      intro _ hv hsize
      exact htakes.short (hshort hv hl.sound.aligned_fresh hsize)
  · rintro _ files s - ⟨hshort, hs⟩
    refine ⟨?_, l, hs, hl.evolves.loads hi⟩
    intro _ _ _
    exact hshort.mono (List.nil_subset _) Nat.le.refl

/-! ## All pages -/

/-- The pages of an image do not wrap. -/
theorem toNat_page {base : UInt32} {count k : Nat}
    (hb : base.toNat + count * Page.size ≤ UInt32.size) (hk : k < count) :
    (base + UInt32.ofNat (Page.size * k)).toNat = base.toNat + 4096 * k := by
  simp only [Page.size, UInt32.size] at hb
  rw [UInt32.toNat_add, UInt32.toNat_ofNat', Page.size]
  omega

theorem number_page {base : UInt32} {count k : Nat}
    (hb : base.toNat + count * Page.size ≤ UInt32.size) (hk : k < count) :
    Page.number (base + UInt32.ofNat (Page.size * k)) = Page.number base + k := by
  rw [Page.number, toNat_page hb hk, Page.number]
  omega

/-- The pages that an image of `count` pages takes. -/
def Covers (loader : Loader) (count n : Nat) : Prop :=
  Page.number loader.base ≤ n ∧ n < Page.number loader.base + count

/-- The first pages of the image are in place: each has its address, and holds bytes that the file
may have there. -/
def Placed (c : FileContract φ P name) (loader : Loader) (i : Nat) (space : AddressSpace)
    (pages : List PageMapping) (l : Layout) : Prop :=
  ∀ (k : Nat) (page : PageMapping), pages[k]? = some page →
    page.vaddr = loader.base + UInt32.ofNat (Page.size * k) ∧
      ∃ bytes, c.chunk k bytes ∧ l.Holds i space page (padded Page.size bytes)

/-- Pages stay in place while other pages are worked on. -/
theorem Placed.keeps {c : FileContract φ P name} {pages : List PageMapping} {j : Nat}
    {touched : Nat → Prop} (h : Placed c loader i space pages l) (hl : l.Valid spaces)
    (hi : spaces[i]? = some space) (hev : Evolves spaces j touched l l')
    (hn : ∀ (k : Nat) (page : PageMapping), pages[k]? = some page → i = j →
      ¬ touched (Page.number page.vaddr)) : Placed c loader i space pages l' := by
  intro k page hk
  obtain ⟨hv, bytes, hchunk, hholds⟩ := h k page hk
  exact ⟨hv, bytes, hchunk, hholds.evolves hl hi hev (hn k page hk)⟩

/-- Pages stay in place while other spaces are worked on. -/
theorem Placed.evolves {c : FileContract φ P name} {pages : List PageMapping} {j : Nat}
    {touched : Nat → Prop} (h : Placed c loader i space pages l) (hl : l.Valid spaces)
    (hi : spaces[i]? = some space) (hev : Evolves spaces j touched l l') (hij : i ≠ j) :
    Placed c loader i space pages l' :=
  h.keeps hl hi hev fun _ _ _ h => absurd h hij

/-- The next page of the image is none of those before. -/
theorem Placed.not_next {c : FileContract φ P name} {pages : List PageMapping}
    (h : Placed c loader i space pages l)
    (hb : loader.base.toNat + pages.length * Page.size ≤ UInt32.size) {k : Nat}
    {page : PageMapping} (hk : pages[k]? = some page) :
    Page.number page.vaddr ≠ Page.number loader.base + pages.length := by
  have hlt : k < pages.length := (List.getElem?_eq_some_iff.1 hk).1
  rw [(h k page hk).1, number_page hb hlt]
  omega

/-- A page that is loaded next disturbs none of those before. -/
theorem Placed.concat {c : FileContract φ P name} {pages : List PageMapping} {page : PageMapping}
    {count k : Nat} {bytes : List UInt8} (h : Placed c loader i space pages l) (hl : l.Valid spaces)
    (hi : spaces[i]? = some space) (hlen : pages.length = k) (hk : k < count)
    (hbound : loader.base.toNat + count * Page.size ≤ UInt32.size)
    (hload : Loads spaces i space
      (· = Page.number (loader.base + UInt32.ofNat (Page.size * k))) l l')
    (hv : page.vaddr = loader.base + UInt32.ofNat (Page.size * k)) (hchunk : c.chunk k bytes)
    (hholds : l'.Holds i space page (padded Page.size bytes)) :
    Placed c loader i space (pages ++ [page]) l' := by
  subst hlen
  have hb : loader.base.toNat + pages.length * Page.size ≤ UInt32.size := by
    have hle := Nat.mul_le_mul_right Page.size hk.le
    omega
  have hbefore : Placed c loader i space pages l' := by
    refine h.keeps hl hi hload.toEvolves ?_
    intro m old hm _ hsame
    rw [number_page hbound hk] at hsame
    exact h.not_next hb hm hsame
  intro m new hm
  rcases getElem?_concat_eq_some hm with hm | ⟨rfl, rfl⟩
  · exact hbefore m new hm
  · exact ⟨hv, bytes, hchunk, hholds⟩

/-- The addresses of the first `k` pages of the image. -/
def addresses (loader : Loader) (k : Nat) : List UInt32 :=
  (List.range k).map fun j => loader.base + UInt32.ofNat (Page.size * j)

theorem length_addresses (loader : Loader) (k : Nat) : (loader.addresses k).length = k := by
  rw [addresses, List.length_map, List.length_range]

theorem addresses_succ (loader : Loader) (k : Nat) : loader.addresses (k + 1) =
    loader.addresses k ++ [loader.base + UInt32.ofNat (Page.size * k)] := by
  rw [addresses, List.range_succ, List.map_append, List.map_singleton, ← addresses]

theorem addresses_subset {k n : Nat} (h : k ≤ n) : loader.addresses k ⊆ loader.addresses n :=
  List.map_subset _ (List.range_subset.2 h)

/-- The first `k` pages of the image were loaded and are in place. One frame was taken for each, and
those for the tables that were missing. -/
structure InPlace (c : FileContract φ P name) (loader : Loader) (spaces : List AddressSpace)
    (i : Nat) (space : AddressSpace) (l : Layout) (k : Nat) (pages : List PageMapping)
    (l' : Layout) : Prop extends Loads spaces i space (loader.Covers k) l l' where
  length : pages.length = k
  placed : Placed c loader i space pages l'
  takes : l.Takes space.directory (loader.addresses k) k l'

/-- At first no page is in place. -/
theorem InPlace.zero (c : FileContract φ P name) (loader : Loader) (hl : l.Valid spaces)
    (hi : spaces[i]? = some space) : InPlace c loader spaces i space l 0 [] l where
  toLoads := hl.evolves.loads hi
  length := rfl
  placed _ _ h := nomatch h
  takes := Takes.none rfl fun _ => rfl

/-- One more page is in place. -/
theorem InPlace.concat {c : FileContract φ P name} {pages : List PageMapping} {page : PageMapping}
    {l'' : Layout} {count k : Nat} {bytes : List UInt8}
    (h : InPlace c loader spaces i space l k pages l') (hi : spaces[i]? = some space)
    (hk : k < count) (hbound : loader.base.toNat + count * Page.size ≤ UInt32.size)
    (hload : Loads spaces i space
      (· = Page.number (loader.base + UInt32.ofNat (Page.size * k))) l' l'')
    (htakes : l'.Takes space.directory [loader.base + UInt32.ofNat (Page.size * k)] 1 l'')
    (hv : page.vaddr = loader.base + UInt32.ofNat (Page.size * k)) (hchunk : c.chunk k bytes)
    (hholds : l''.Holds i space page (padded Page.size bytes)) :
    InPlace c loader spaces i space l (k + 1) (pages ++ [page]) l'' where
  toLoads := by
    refine (h.toLoads.mono fun n hn => ⟨hn.1, Nat.lt_succ_of_lt hn.2⟩).trans (hload.mono ?_)
    rintro n rfl
    rw [number_page hbound hk]
    exact ⟨Nat.le_add_right _ _, Nat.lt_succ_self _⟩
  length := by
    rw [List.length_append, h.length]
    rfl
  placed := h.placed.concat h.valid hi h.length hk hbound hload hv hchunk hholds
  takes := by
    rw [addresses_succ]
    exact h.takes.trans htakes

/-- No more was taken than two frames for each page. -/
theorem InPlace.roomy {c : FileContract φ P name} {pages : List PageMapping} {k : Nat}
    (h : InPlace c loader spaces i space l k pages l') {n : Nat} (hr : l.Roomy (n + 2 * k)) :
    l'.Roomy n := by
  refine h.takes.roomy h.size ?_
  rwa [length_addresses, Nat.add_assoc, ← Nat.two_mul]

/-- What is left where a load fails: the pages before the one that fails are in place, and that one
maybe has its frame already. A store that does not fail leaves no reasons but a range that does not
fit and a pool that is used up. -/
inductive Stopped (c : FileContract φ P name) (loader : Loader) (spaces : List AddressSpace)
    (i : Nat) (space : AddressSpace) (l : Layout) (e : Error) : Ram × Pool → Prop
  /-- No page was begun. -/
  | early : (c.reliable → ∃ size, c.size size ∧
        ¬ loader.base.toNat + Page.roundUp size ≤ UInt32.size) →
      Stopped c loader spaces i space l e l.state
  /-- The page `k` failed. -/
  | midway {size k : Nat} {pages : List PageMapping} {l' l'' : Layout} : c.size size →
      loader.base.toNat + Page.roundUp size ≤ UInt32.size → k < Page.count size →
      InPlace c loader spaces i space l k pages l' →
      Loads spaces i space (· = Page.number (loader.base + UInt32.ofNat (Page.size * k))) l' l'' →
      (c.reliable → Page.Aligned loader.base → l.pool.limit ≤ l.ram.size →
        l.Short space.directory (loader.addresses (k + 1)) (k + 1) e) →
      Stopped c loader spaces i space l e l''.state
  /-- All pages are in place, but the file was not closed. -/
  | closing {size : Nat} {pages : List PageMapping} {l' : Layout} : c.size size →
      loader.base.toNat + Page.roundUp size ≤ UInt32.size →
      InPlace c loader spaces i space l (Page.count size) pages l' → ¬ c.reliable →
      Stopped c loader spaces i space l e l'.state

/-- One round of the loop over the pages. -/
theorem nextPage_meets (c : FileContract φ P name) (hi : spaces[i]? = some space) (fd : Nat)
    {size k : Nat} (hsize : c.size size)
    (hbound : loader.base.toNat + Page.roundUp size ≤ UInt32.size) (hk : k < Page.count size)
    (pages : List PageMapping) :
    Op.Meets (fun s => c.reading fd k s.1 ∧ ∃ l', s.2 = l'.state ∧
        InPlace c loader spaces i space l k pages l')
      (loadPage space fd (loader.base + UInt32.ofNat (Page.size * k)))
      (fun page s => c.reading fd (k + 1) s.1 ∧ ∃ l', s.2 = l'.state ∧
        InPlace c loader spaces i space l (k + 1) (pages ++ [page]) l')
      (fun e s => Stopped c loader spaces i space l e s.2) := by
  refine Op.Meets.of_states ?_
  rintro ⟨files, _⟩ ⟨hr, l', rfl, hplaced⟩
  refine (loadPage_meets c hplaced.valid hi fd k _).weaken ?_ ?_ ?_
  · rintro _ rfl
    exact ⟨hr, rfl⟩
  · rintro page s ⟨hr', hv, l'', bytes, hs, hload, hchunk, hholds, htakes⟩
    exact ⟨hr', l'', hs, hplaced.concat hi hk hbound hload htakes hv hchunk hholds⟩
  · rintro e ⟨_, _⟩ ⟨hshort, l'', rfl, hload⟩
    refine .midway hsize hbound hk hplaced hload ?_
    intro hreliable ha hlimit
    have hv : Page.Aligned (loader.base + UInt32.ofNat (Page.size * k)) := by
      have ha := Page.aligned_iff.1 ha
      rw [Page.aligned_iff, toNat_page hbound hk]
      omega
    rw [addresses_succ]
    refine hplaced.takes.short (hshort hreliable hv ?_)
    rw [hplaced.size, hplaced.takes.pool]
    exact hlimit

/-- The loop over the pages. -/
theorem collectPages_meets (c : FileContract φ P name) (hl : l.Valid spaces)
    (hi : spaces[i]? = some space) (fd : Nat) {size : Nat} (hsize : c.size size)
    (hbound : loader.base.toNat + Page.roundUp size ≤ UInt32.size) :
    Op.Meets (fun s => c.reading fd 0 s.1 ∧ s.2 = l.state)
      (Op.collect (fun k => loadPage space fd (loader.base + UInt32.ofNat (Page.size * k)))
        (List.range (Page.count size)) : Op (φ × Ram × Pool) (List PageMapping))
      (fun pages s => c.reading fd (Page.count size) s.1 ∧ ∃ l', s.2 = l'.state ∧
        InPlace c loader spaces i space l (Page.count size) pages l')
      (fun e s => Stopped c loader spaces i space l e s.2) := by
  have hloop := Op.Meets.collect_range fun k hk pages =>
    nextPage_meets (l := l) c hi fd hsize hbound hk pages
  refine hloop.onStart ?_
  rintro s ⟨hr, hs⟩
  exact ⟨hr, l, hs, InPlace.zero c loader hl hi⟩

/-- The image is in place as a whole. -/
structure Loaded (c : FileContract φ P name) (loader : Loader) (i : Nat) (space : AddressSpace)
    (image : Image) (l : Layout) : Prop where
  entry : image.entry = loader.base
  size : c.size image.size
  bound : loader.base.toNat + Page.roundUp image.size ≤ UInt32.size
  length : image.pages.length = Page.count image.size
  placed : Placed c loader i space image.pages l

/-- The pages of an open file are loaded, or some of them. -/
theorem loadPages_meets (c : FileContract φ P name) (hl : l.Valid spaces)
    (hi : spaces[i]? = some space) (fd : Nat) {size : Nat} (hsize : c.size size) :
    Op.Meets (fun s => c.reading fd 0 s.1 ∧ s.2 = l.state) (loader.loadPages space fd size)
      (fun image s => (∃ k, c.reading fd k s.1) ∧ ∃ l', s.2 = l'.state ∧
        InPlace c loader spaces i space l (Page.count image.size) image.pages l' ∧
        Loaded c loader i space image l')
      (fun e s => Stopped c loader spaces i space l e s.2) := by
  refine Op.Meets.bind (Q := fun _ s => loader.base.toNat + Page.roundUp size ≤ UInt32.size ∧
    c.reading fd 0 s.1 ∧ s.2 = l.state) (Op.Meets.require (fun s hs hb => ⟨hb, hs⟩) ?_)
      fun _ => Op.Meets.of_imp (fun s hs => hs.1) fun hbound => ?_
  · rintro ⟨_, _⟩ ⟨-, rfl⟩ hb
    exact .early fun _ => ⟨size, hsize, hb⟩
  · refine Op.Meets.bind ((collectPages_meets c hl hi fd hsize hbound).onStart fun s hs => hs.2)
      fun pages => Op.Meets.pure ?_
    rintro s ⟨hr, l', hs, hplaced⟩
    exact ⟨⟨_, hr⟩, l', hs, hplaced, rfl, hsize, hbound, hplaced.length, hplaced.placed⟩

/-- The store tells the size of an open file, or nothing was begun. -/
theorem sizeAt_meets (c : FileContract φ P name) (loader : Loader) (spaces : List AddressSpace)
    (i : Nat) (space : AddressSpace) (l : Layout) (fd : Nat) :
    Op.Meets (fun s => c.reading fd 0 s.1 ∧ s.2 = l.state)
      ((.fst (FileStore.sizeAt fd) : Op (φ × Ram × Pool) Nat).onFailure
        (.fst (FileStore.closeAt fd)))
      (fun size s => c.size size ∧ c.reading fd 0 s.1 ∧ s.2 = l.state)
      (fun e s => Stopped c loader spaces i space l e s.2) := by
  refine Op.Meets.onFailure (E := fun e s => Stopped c loader spaces i space l e s.2) ?_
    fun e => Op.Meets.fst_any (B := Stopped c loader spaces i space l e) _
  refine Op.Meets.weaken ((c.sizeAt fd).fst ?_) (fun _ hs => hs) ?_ fun _ _ he => he
  · exact fun _ _ hn => .early fun h => absurd h hn
  · rintro size s ⟨⟨hsize, hr⟩, hs⟩
    exact ⟨hsize, hr, hs⟩

/-- A file is loaded as a whole, or the load stops and leaves what it has done. -/
theorem load_inPlace (c : FileContract φ P name) (hl : l.Valid spaces)
    (hi : spaces[i]? = some space) :
    Op.Meets (fun s => P s.1 ∧ s.2 = l.state) (loader.load space name)
      (fun image s => ∃ l', s.2 = l'.state ∧
        InPlace c loader spaces i space l (Page.count image.size) image.pages l' ∧
        Loaded c loader i space image l')
      (fun e s => Stopped c loader spaces i space l e s.2) := by
  refine Op.Meets.fst_bind c.openName ?_ ?_
  · intro fd
    refine Op.Meets.report_bind (Op.Meets.bind (sizeAt_meets c loader spaces i space l fd)
      fun size => Op.Meets.of_imp (fun s hs => hs.1) fun hsize => ?_)
    refine Op.Meets.bind (Q := fun _ s => c.reading fd 0 s.1 ∧ s.2 = l.state)
      (Op.Meets.require (fun s hs _ => hs.2) ?_) fun _ => ?_
    · -- sums that are too large come from a size for which there is no room
      rintro ⟨_, _⟩ ⟨-, -, rfl⟩ hn
      exact .early fun _ => ⟨size, hsize, mt sumsFit_of_roundUp_le hn⟩
    -- closing the file comes after either way out, and memory has no part in it
    refine Op.Meets.bind ((loadPages_meets c hl hi fd hsize).andFinally ?_ ?_)
      fun image => Op.Meets.report_bind (Op.Meets.pure fun _ h => h)
    · intro image
      refine Op.Meets.within ?_
      rintro ⟨files, s⟩ ⟨⟨k, hr⟩, hfull⟩
      refine (c.closeAt fd k).weaken ?_ (fun _ _ _ => hfull) ?_
      · rintro _ rfl
        exact hr
      · rintro _ _ hn
        obtain ⟨l', rfl, hplaced, hloaded⟩ := hfull
        exact .closing hloaded.size hloaded.bound hplaced hn
    · exact fun e => Op.Meets.fst_any (B := Stopped c loader spaces i space l e) _
  · intro _ files hn
    exact .early fun h => absurd h hn

/-! ## What a load touches -/

/-- The pages that an image may take, as far as its size is known. -/
def MayCover (c : FileContract φ P name) (loader : Loader) (n : Nat) : Prop :=
  ∃ size, c.size size ∧ loader.Covers (Page.count size) n

/-- All that a load may need: a store that does not fail, addresses for the pages, and two frames
for each of them. -/
def Enough (c : FileContract φ P name) (loader : Loader) (l : Layout) : Prop :=
  c.reliable ∧ Page.Aligned loader.base ∧ ∀ size, c.size size →
    loader.base.toNat + Page.roundUp size ≤ UInt32.size ∧ l.Roomy (2 * Page.count size)

/-- Memory after a load into the space `i` that failed, maybe midway. -/
def PartlyLoaded (c : FileContract φ P name) (loader : Loader) (spaces : List AddressSpace)
    (i : Nat) (space : AddressSpace) (l : Layout) (s : Ram × Pool) : Prop :=
  ¬ Enough c loader l ∧ ∃ l', s = l'.state ∧ Loads spaces i space (MayCover c loader) l l'

/-- Memory after a load into the space `i` that succeeded, with at most two frames taken for each
page. -/
def FullyLoaded (c : FileContract φ P name) (loader : Loader) (spaces : List AddressSpace)
    (i : Nat) (space : AddressSpace) (l : Layout) (image : Image) (s : Ram × Pool) : Prop :=
  ∃ l', s = l'.state ∧ Loads spaces i space (MayCover c loader) l l' ∧
    Loaded c loader i space image l' ∧
    ∀ n, l.Roomy (n + 2 * Page.count image.size) → l'.Roomy n

/-- The first pages of an image are pages that it may take. -/
theorem InPlace.mayCover {c : FileContract φ P name} {pages : List PageMapping} {size k : Nat}
    (h : InPlace c loader spaces i space l k pages l') (hsize : c.size size)
    (hk : k ≤ Page.count size) : Loads spaces i space (MayCover c loader) l l' :=
  h.toLoads.mono fun _ hn => ⟨size, hsize, hn.1, Nat.lt_of_lt_of_le hn.2 (by omega)⟩

/-- A load that stops has touched no pages but those of the image, and lacked something. -/
theorem Stopped.partlyLoaded {c : FileContract φ P name} {e : Error} {s : Ram × Pool}
    (h : Stopped c loader spaces i space l e s) (hl : l.Valid spaces)
    (hi : spaces[i]? = some space) : PartlyLoaded c loader spaces i space l s := by
  cases h with
  | early hn =>
    refine ⟨?_, l, rfl, hl.evolves.loads hi⟩
    rintro ⟨hreliable, -, hroom⟩
    obtain ⟨size, hsize, hb⟩ := hn hreliable
    exact hb (hroom size hsize).1
  | @midway size k pages l' l'' hsize hbound hk hplaced hload hshort =>
    refine ⟨?_, l'', rfl, (hplaced.mayCover hsize hk.le).trans (hload.mono ?_)⟩
    · rintro ⟨hreliable, ha, hroom⟩
      have hroom := (hroom size hsize).2
      refine (hshort hreliable ha hroom.1).not_roomy (hroom.mono ?_)
      rw [length_addresses]
      omega
    · rintro n rfl
      rw [number_page hbound hk]
      exact ⟨size, hsize, Nat.le_add_right _ _, Nat.add_lt_add_left hk _⟩
  | @closing size pages l' hsize hbound hplaced hn =>
    exact ⟨fun h => hn h.1, l', rfl, hplaced.mayCover hsize le_rfl⟩

/-- A file is loaded as a whole, or the load fails with some of its pages in place. -/
theorem load_meets (c : FileContract φ P name) (hl : l.Valid spaces)
    (hi : spaces[i]? = some space) :
    Op.Meets (fun s => P s.1 ∧ s.2 = l.state) (loader.load space name)
      (fun image s => FullyLoaded c loader spaces i space l image s.2)
      (fun _ s => PartlyLoaded c loader spaces i space l s.2) := by
  refine (load_inPlace c hl hi).weaken (fun _ h => h) ?_ fun _ _ h => h.partlyLoaded hl hi
  rintro image s ⟨l', hs, hplaced, hloaded⟩
  exact ⟨l', hs, hplaced.mayCover hloaded.size le_rfl, hloaded, fun _ hr => hplaced.roomy hr⟩

/-- With enough of everything the file is loaded. -/
theorem load_of_enough (c : FileContract φ P name) (hl : l.Valid spaces)
    (hi : spaces[i]? = some space) (h : Enough c loader l) {files : φ} (hf : P files) :
    ∃ image s es, (loader.load space name).run (files, l.state) = ⟨.ok image, s, es⟩ ∧
      FullyLoaded c loader spaces i space l image s.2 :=
  (load_meets c hl hi).succeeds ⟨hf, rfl⟩ fun _ _ he => he.1 h

end Loader

end PagedMemory
