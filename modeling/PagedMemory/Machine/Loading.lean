import PagedMemory.Image
import PagedMemory.Machine

/-!
# Address spaces and images on a machine

Creating an address space and loading an image reach the RAM of a machine past all its devices.
-/

namespace PagedMemory

namespace Machine

variable {δ φ α β : Type}

/-- Runs an operation on files, RAM and a source of frames. -/
@[inline] def onMemory (op : Op (φ × Ram × α) β) : Op (φ × Machine δ × α) β :=
  op.within
    (fun (files, ⟨⟨ram, table⟩, tracking⟩, source) => ((files, ram, source), (table, tracking)))
    (fun (files, ram, source) (table, tracking) => (files, ⟨⟨ram, table⟩, tracking⟩, source))

/-- An address space in which nothing is mapped. -/
def createSpace [FrameSource α] : Op (Machine δ × α) AddressSpace := onRamWith AddressSpace.create

/-- Loads an image where images usually begin. -/
def load [FileStore φ] [FrameSource α] (space : AddressSpace) (name : String) :
    Op (φ × Machine δ × α) Image :=
  onMemory (Loader.standard.load space name)

@[simp] theorem run_onMemory (op : Op (φ × Ram × α) β) (files : φ) (machine : Machine δ)
    (source : α) :
    (onMemory op).run (files, machine, source) =
      let o := op.run (files, machine.bus.ram, source)
      ⟨o.result, (o.state.1, ⟨⟨o.state.2.1, machine.bus.table⟩, machine.tracking⟩, o.state.2.2),
        o.events⟩ := rfl

end Machine

end PagedMemory
