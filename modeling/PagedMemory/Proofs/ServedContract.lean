import PagedMemory.Files.Served
import PagedMemory.Proofs.RamdiskContract

/-!
# Files of a served directory, page by page

A served directory takes the whole file when it is opened, and then behaves like a RAM disk: the
reads deliver the contents from the beginning to the end without a gap, whatever becomes of the file
on the host.

- `Served.contract`: what the directory promises about a file that it finds.
-/

namespace PagedMemory

namespace Served

/-- The contents themselves are open, with `k` pages of them behind the offset. -/
def Reading (data : Array UInt8) (fd k : Nat) (served : Served) : Prop :=
  served.opened.Reading data data fd k

variable {data : Array UInt8}

theorem openName_meets (name : String) (data : Array UInt8) :
    Op.Meets (fun served : Served => served.fetch name = .ok data) (FileStore.openName name)
      (fun fd => Reading data fd 0) (fun _ _ => False) := by
  refine Op.Meets.of_states fun served hserved => ?_
  have hask : (Op.ask (·.fetch name)).run served = ⟨.ok (.ok data), served, []⟩ := by
    rw [Op.run_ask, hserved]
  refine Op.Meets.step hask (Op.Meets.within ?_)
  rintro _ rfl
  exact (DescriptorTable.insert_meets data data).onStart fun _ _ => trivial

theorem sizeAt_meets (fd : Nat) :
    Op.Meets (Reading data fd 0) (FileStore.sizeAt fd)
      (fun n served => n = data.size ∧ Reading data fd 0 served) (fun _ _ => False) := by
  intro served hserved
  have hsize : (FileStore.sizeAt fd : Op Served Nat).run served = ⟨.ok data.size, served, []⟩ := by
    show (⟨(served.opened.find fd).map (·.file.size), served, []⟩ : Outcome Served Nat) = _
    rw [DescriptorTable.find_of_get? hserved]
    rfl
  rw [hsize]
  exact ⟨rfl, hserved⟩

theorem readAt_meets (fd k : Nat) :
    Op.Meets (Reading data fd k) (FileStore.readAt fd Page.size)
      (fun bytes served => bytes = Ramdisk.chunk data k ∧ Reading data fd (k + 1) served)
      (fun _ _ => False) := by
  show Op.Meets _ (onOpened (DescriptorTable.read id fd Page.size)) _ _
  refine Op.Meets.within fun served hserved => ?_
  refine (DescriptorTable.read_meets rfl fd k).onStart ?_
  rintro _ rfl
  exact hserved

theorem closeAt_meets (fd k : Nat) :
    Op.Meets (Reading data fd k) (FileStore.closeAt fd) (fun _ _ => True)
      (fun _ _ => False) := by
  show Op.Meets _ (onOpened (DescriptorTable.close fd)) _ _
  refine Op.Meets.within fun served hserved => ?_
  refine (DescriptorTable.close_meets data data fd k).onStart ?_
  rintro _ rfl
  exact hserved

/-- What a served directory promises about a file that it finds: all calls succeed, and tell the
truth. -/
def contract (name : String) (data : Array UInt8) :
    FileContract Served (fun served => served.fetch name = .ok data) name where
  reliable := True
  reading := Reading data
  size n := n = data.size
  chunk k bytes := bytes = Ramdisk.chunk data k
  openName := (openName_meets name data).onError fun _ _ => False.elim
  sizeAt fd := (sizeAt_meets fd).onError fun _ _ => False.elim
  readAt fd k := (readAt_meets fd k).onError fun _ _ => False.elim
  closeAt fd k := (closeAt_meets fd k).onError fun _ _ => False.elim

end Served

end PagedMemory
