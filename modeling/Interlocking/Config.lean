import Interlocking.Json.Value
import Interlocking.Name

/-!
# Configuration

The settings of a layout and of a simulation, each with a default. The JSON form groups
them in four sections; a section, or a field of a section, that is left out keeps its
default.
-/

namespace Interlocking

open Json (Value)

/-- The name of a board that was not given another one. -/
def ShortName.logic : ShortName := ⟨"logic", by decide⟩

/-- The name of the board, with which every variable's name starts. -/
structure BoardConfig where
  name : ShortName := .logic
  deriving DecidableEq, Repr

/-- The address space of the variables. -/
structure AllocatorConfig where
  /-- The first event of the block. -/
  eventBase : UInt64 := 0x0501010114220000
  /-- The number of addresses. -/
  blockSize : UInt32 := 2048
  deriving DecidableEq, Repr

/-- The filtering of raw sensor inputs. -/
structure DetectorConfig where
  /-- Passes for which an input has to be stable until it is believed. -/
  debounceCycles : UInt8 := 3
  deriving DecidableEq, Repr

/-- The simulation of a program. -/
structure SimConfig where
  /-- The number of cycles after which settling is given up. -/
  maxSettleCycles : UInt32 := 64
  /-- Whether the automata take their turns from last to first. -/
  reverseOrder : Bool := false
  deriving DecidableEq, Repr

/-- All settings. -/
structure Config where
  board : BoardConfig := {}
  allocator : AllocatorConfig := {}
  detector : DetectorConfig := {}
  sim : SimConfig := {}
  deriving DecidableEq, Repr

/-- A field as `read` reads it, or its default if it was left out. -/
def fieldOr {α : Type} (default : α) (read : Value → Option α) : Option Value → Option α
  | none => some default
  | some value => read value

/-- A name that fits. -/
def ShortName.ofJson? (value : Value) : Option ShortName :=
  value.text? >>= fun text => (ShortName.ofString text).toOption

/-- The board's section. -/
def BoardConfig.ofJson? (value : Value) : Option BoardConfig :=
  match value.record? ["name"] with
  | some [name] => do
      let name ← fieldOr ({} : BoardConfig).name ShortName.ofJson? name
      return { name }
  | _ => none

/-- The allocator's section. -/
def AllocatorConfig.ofJson? (value : Value) : Option AllocatorConfig :=
  match value.record? ["event_base", "block_size"] with
  | some [eventBase, blockSize] => do
      let eventBase ← fieldOr ({} : AllocatorConfig).eventBase Value.long? eventBase
      let blockSize ← fieldOr ({} : AllocatorConfig).blockSize Value.word? blockSize
      return { eventBase, blockSize }
  | _ => none

/-- The detectors' section. -/
def DetectorConfig.ofJson? (value : Value) : Option DetectorConfig :=
  match value.record? ["debounce_cycles"] with
  | some [debounceCycles] => do
      let debounceCycles ←
        fieldOr ({} : DetectorConfig).debounceCycles Value.byte? debounceCycles
      return { debounceCycles }
  | _ => none

/-- The simulation's section. -/
def SimConfig.ofJson? (value : Value) : Option SimConfig :=
  match value.record? ["max_settle_cycles", "reverse_order"] with
  | some [maxSettleCycles, reverseOrder] => do
      let maxSettleCycles ←
        fieldOr ({} : SimConfig).maxSettleCycles Value.word? maxSettleCycles
      let reverseOrder ← fieldOr ({} : SimConfig).reverseOrder Value.bool? reverseOrder
      return { maxSettleCycles, reverseOrder }
  | _ => none

/-- A configuration from its JSON form. -/
def Config.ofJson? (value : Value) : Option Config :=
  match value.record? ["board", "allocator", "detector", "sim"] with
  | some [board, allocator, detector, sim] => do
      let board ← fieldOr {} BoardConfig.ofJson? board
      let allocator ← fieldOr {} AllocatorConfig.ofJson? allocator
      let detector ← fieldOr {} DetectorConfig.ofJson? detector
      let sim ← fieldOr {} SimConfig.ofJson? sim
      return { board, allocator, detector, sim }
  | _ => none

end Interlocking
