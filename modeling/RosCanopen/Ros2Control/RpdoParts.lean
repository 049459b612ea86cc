import RosCanopen.Ros2Control.Proxy

/-!
# The parts of a received datum

A received datum is behind three state interfaces, each a double of its own.  `set_rpdo_data`
assigns these one after the other, `update` reads them one after the other, and nothing keeps
the one from running between two steps of the other.

## Main definitions

* `RpdoPart` — the three doubles.
* `CanopenNodeData.setPart`, `CanopenNodeData.seeing` — an assignment, and what was read.
* `RpdoPart.Holds`, `RpdoPart.Comes` — a double that shows its part of a datum, and a message
  that has it.
-/

namespace RosCanopen.Ros2Control

open Lib Cia402
open Bridge (COData)

/-- The doubles, in the order in which they are assigned and read. -/
inductive RpdoPart
  | index
  | subindex
  | data
  deriving DecidableEq

namespace RpdoPart

def next : RpdoPart → Option RpdoPart
  | .index => some .subindex
  | .subindex => some .data
  | .data => none

def rank : RpdoPart → ℕ
  | .index => 0
  | .subindex => 1
  | .data => 2

/-- The part is the one, or behind it. -/
def IsFrom (w : RpdoPart) : Option RpdoPart → Prop
  | none => False
  | some first => first.rank ≤ w.rank

instance (w : RpdoPart) (first : Option RpdoPart) : Decidable (w.IsFrom first) := by
  cases first <;> unfold IsFrom <;> infer_instance

/-- The state interface. -/
def interface (s : RORos2ControlCOData) : RpdoPart → Double
  | .index => s.index
  | .subindex => s.subindex
  | .data => s.data

/-- The assignment of `prepare_data`; `raw` is the number that is no `bool`. -/
def assign (s : RORos2ControlCOData) (raw : Double) : RpdoPart → RORos2ControlCOData
  | .index => { s with index := ofUnsigned s.originalData.index }
  | .subindex => { s with subindex := ofUnsigned s.originalData.subindex }
  | .data => { s with data := ((s.coType.load s.originalData.data).map Double.fin).getD raw }

/-- The double shows the part of the datum. -/
def Holds (x : Double) (d : COData) : RpdoPart → Prop
  | .index => x = ofUnsigned d.index
  | .subindex => x = ofUnsigned d.subindex
  | .data => ∃ raw, x = ((CoType.int32.load d.data).map Double.fin).getD raw

/-- The message has the part of the datum; the data come through up to the largest signed
number. -/
def Comes (p d : COData) : RpdoPart → Prop
  | .index => p.index = d.index
  | .subindex => p.subindex = d.subindex
  | .data => d.data.toNat < 2 ^ 31 → p.data = d.data

variable {w w' : RpdoPart}

theorem isFrom_self (w : RpdoPart) : w.IsFrom (some w) := Nat.le_refl _

theorem isFrom_index (w : RpdoPart) : w.IsFrom (some .index) := Nat.zero_le _

theorem not_isFrom_next (w : RpdoPart) : ¬ w.IsFrom w.next := by
  cases w <;> decide

/-- Going on to the next part only leaves the one behind. -/
theorem isFrom_next (hne : w ≠ w') : w.IsFrom w'.next ↔ w.IsFrom (some w') := by
  cases w <;> cases w' <;> first | exact absurd rfl hne | decide

theorem originalData_assign (s : RORos2ControlCOData) (raw : Double) :
    (w.assign s raw).originalData = s.originalData := by
  cases w <;> rfl

theorem coType_assign (s : RORos2ControlCOData) (raw : Double) :
    (w.assign s raw).coType = s.coType := by
  cases w <;> rfl

theorem interface_assign_of_ne (hne : w ≠ w') (s : RORos2ControlCOData) (raw : Double) :
    w.interface (w'.assign s raw) = w.interface s := by
  cases w <;> cases w' <;> first | exact absurd rfl hne | rfl

theorem holds_assign (w : RpdoPart) {s : RORos2ControlCOData} (htype : s.coType = .int32)
    (raw : Double) : w.Holds (w.interface (w.assign s raw)) s.originalData := by
  cases w with
  | index => exact rfl
  | subindex => exact rfl
  | data =>
      refine ⟨raw, ?_⟩
      rw [← htype]
      rfl

end RpdoPart

namespace CanopenNodeData

/-- A step of `set_rpdo_data` behind `set_data`; after the last the datum goes to the maps. -/
def setPart (s : CanopenNodeData) (raw : Double) (w : RpdoPart) : CanopenNodeData :=
  let rpdoData := w.assign s.rpdoData raw
  match w.next with
  | some _ => { s with rpdoData }
  | none =>
      let d := rpdoData.originalData
      { s with
        rpdoData
        rpdoRawDataMap := Function.update s.rpdoRawDataMap (d.index, d.subindex) (some d.data)
        rpdoDataMap := Function.update s.rpdoDataMap (d.index, d.subindex) (some rpdoData.data) }

/-- The node with what was read of the interfaces. -/
def seeing (s : CanopenNodeData) (seen : RpdoPart → Double) : CanopenNodeData :=
  { s with
    rpdoData := { s.rpdoData with
      index := seen .index
      subindex := seen .subindex
      data := seen .data } }

/-- The steps make up `set_rpdo_data`. -/
theorem setRpdoData_eq (s : CanopenNodeData) (d : COData) (raw : Double) :
    s.setRpdoData d raw = ((({ s with rpdoData := s.rpdoData.setData d } : CanopenNodeData).setPart
      raw .index).setPart raw .subindex).setPart raw .data := rfl

@[simp] theorem rpdoData_setPart (s : CanopenNodeData) (raw : Double) (w : RpdoPart) :
    (s.setPart raw w).rpdoData = w.assign s.rpdoData raw := by
  cases w <;> rfl

@[simp] theorem interface_seeing (s : CanopenNodeData) (seen : RpdoPart → Double) (w : RpdoPart) :
    w.interface (s.seeing seen).rpdoData = seen w := by
  cases w <;> rfl

/-- What is read at once is what the interfaces hold. -/
theorem seeing_interface (s : CanopenNodeData) :
    s.seeing (fun w => w.interface s.rpdoData) = s := rfl

/-- The message has the part that the interface shows. -/
theorem comes_rpdoMessage {s : CanopenNodeData} {d : COData} {w : RpdoPart}
    (hholds : w.Holds (w.interface s.rpdoData) d) (raw : COData) :
    w.Comes (s.rpdoMessage raw) d := by
  cases w with
  | index =>
      have hindex : s.rpdoData.index = ofUnsigned d.index := hholds
      rw [RpdoPart.Comes, rpdoMessage, hindex, staticCast_ofUnsigned (by decide)]
      rfl
  | subindex =>
      have hsubindex : s.rpdoData.subindex = ofUnsigned d.subindex := hholds
      rw [RpdoPart.Comes, rpdoMessage, hsubindex, staticCast_ofUnsigned (by decide)]
      rfl
  | data =>
      obtain ⟨raw', hdata⟩ := hholds
      intro hd
      have hdata' : s.rpdoData.data = ((CoType.int32.load d.data).map Double.fin).getD raw' := hdata
      rw [rpdoMessage, hdata', staticCast_load, if_pos hd]
      rfl

end CanopenNodeData
end RosCanopen.Ros2Control
