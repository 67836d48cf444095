import TrialSummary.Binary64.Rounding
import TrialSummary.Trial.Identity

/-!
# Records of measurements

A record holds what was measured in one trial. There are eleven fields; five are measures, which are
binary64 numbers, and six are counts, which are signed 64-bit integers. Each field has a cell of the
type that belongs to it, and a cell is empty until a value is stored. A value of the other type is
converted when it is stored: a measure is cut off to a whole number for a count, and a count is
rounded to the nearest number for a measure.
-/

namespace TrialSummary

inductive Quantity where
  | measure
  | count
  deriving DecidableEq

/-- The fields of a record: average, count and time of the phases of a trial, and the page requests
of its scans. -/
inductive Field where
  | avg1
  | count1
  | time1
  | avg2
  | count2
  | time2
  | count3
  | time3
  | pgreq1
  | pgreqR3
  | pgreqS3
  deriving DecidableEq

inductive Value where
  | measure (x : Binary64)
  | count (n : Int64)
  deriving DecidableEq

namespace Quantity

abbrev Carrier : Quantity → Type
  | .measure => Binary64
  | .count => Int64

end Quantity

namespace Value

def convert : Value → (q : Quantity) → q.Carrier
  | .measure x, .measure => x
  | .measure x, .count => x.toInt64
  | .count n, .measure => Binary64.ofInt64 n
  | .count n, .count => n

def ofCarrier : (q : Quantity) → q.Carrier → Value
  | .measure, x => .measure x
  | .count, n => .count n

def toBinary64 (v : Value) : Binary64 := v.convert .measure

@[simp] theorem convert_ofCarrier (q : Quantity) (c : q.Carrier) :
    (ofCarrier q c).convert q = c := by
  cases q <;> rfl

end Value

namespace Field

def quantity : Field → Quantity
  | .avg1 | .time1 | .avg2 | .time2 | .time3 => .measure
  | .count1 | .count2 | .count3 | .pgreq1 | .pgreqR3 | .pgreqS3 => .count

/-- The name used in messages and settings. -/
def name : Field → String
  | .avg1 => "avg1"
  | .count1 => "count1"
  | .time1 => "time1"
  | .avg2 => "avg2"
  | .count2 => "count2"
  | .time2 => "time2"
  | .count3 => "count3"
  | .time3 => "time3"
  | .pgreq1 => "pgreq1"
  | .pgreqR3 => "pgreqr3"
  | .pgreqS3 => "pgreqs3"

/-- The name used when a plan shows what stands on a line. -/
def label : Field → String
  | .avg1 => "Avg1"
  | .count1 => "Count1"
  | .time1 => "Time1"
  | .avg2 => "Avg2"
  | .count2 => "Count2"
  | .time2 => "Time2"
  | .count3 => "Count3"
  | .time3 => "Time3"
  | .pgreq1 => "PgReq1"
  | .pgreqR3 => "PgReqR3"
  | .pgreqS3 => "PgReqS3"

def all : List Field :=
  [.avg1, .count1, .time1, .avg2, .count2, .time2, .count3, .time3, .pgreq1, .pgreqR3, .pgreqS3]

def ofName? (s : String) : Option Field := all.find? fun f => s == f.name

end Field

/-- The measurements of one trial. What was not measured is left out. -/
structure Record where
  trial : TrialId
  avg1 : Option Binary64 := none
  count1 : Option Int64 := none
  time1 : Option Binary64 := none
  avg2 : Option Binary64 := none
  count2 : Option Int64 := none
  time2 : Option Binary64 := none
  count3 : Option Int64 := none
  time3 : Option Binary64 := none
  pgreq1 : Option Int64 := none
  pgreqR3 : Option Int64 := none
  pgreqS3 : Option Int64 := none

namespace Record

/-- The record of a trial of which nothing is known yet. -/
def empty (trial : TrialId) : Record := { trial }

def get (r : Record) : Field → Option Value
  | .avg1 => r.avg1.map .measure
  | .count1 => r.count1.map .count
  | .time1 => r.time1.map .measure
  | .avg2 => r.avg2.map .measure
  | .count2 => r.count2.map .count
  | .time2 => r.time2.map .measure
  | .count3 => r.count3.map .count
  | .time3 => r.time3.map .measure
  | .pgreq1 => r.pgreq1.map .count
  | .pgreqR3 => r.pgreqR3.map .count
  | .pgreqS3 => r.pgreqS3.map .count

/-- Store a value, as a whole number if the field is a count and as a binary64 number otherwise. -/
def set (r : Record) (f : Field) (v : Value) : Record :=
  let whole := v.convert .count
  let number := v.toBinary64
  match f with
  | .avg1 => { r with avg1 := some number }
  | .count1 => { r with count1 := some whole }
  | .time1 => { r with time1 := some number }
  | .avg2 => { r with avg2 := some number }
  | .count2 => { r with count2 := some whole }
  | .time2 => { r with time2 := some number }
  | .count3 => { r with count3 := some whole }
  | .time3 => { r with time3 := some number }
  | .pgreq1 => { r with pgreq1 := some whole }
  | .pgreqR3 => { r with pgreqR3 := some whole }
  | .pgreqS3 => { r with pgreqS3 := some whole }

def setAll (r : Record) (vs : List (Field × Value)) : Record :=
  vs.foldl (fun r fv => r.set fv.1 fv.2) r

/-!
### Cells

Seen through its fields, a record is a family of cells, each with numbers of the quantity that
belongs to its field. The tables of `get` and `set` are read here once, by cases of the field; after
that a record is known by its cells.
-/

def cell (r : Record) : (f : Field) → Option f.quantity.Carrier
  | .avg1 => r.avg1
  | .count1 => r.count1
  | .time1 => r.time1
  | .avg2 => r.avg2
  | .count2 => r.count2
  | .time2 => r.time2
  | .count3 => r.count3
  | .time3 => r.time3
  | .pgreq1 => r.pgreq1
  | .pgreqR3 => r.pgreqR3
  | .pgreqS3 => r.pgreqS3

def ofCells (trial : TrialId) (cells : (f : Field) → Option f.quantity.Carrier) : Record where
  trial := trial
  avg1 := cells .avg1
  count1 := cells .count1
  time1 := cells .time1
  avg2 := cells .avg2
  count2 := cells .count2
  time2 := cells .time2
  count3 := cells .count3
  time3 := cells .time3
  pgreq1 := cells .pgreq1
  pgreqR3 := cells .pgreqR3
  pgreqS3 := cells .pgreqS3

@[simp] theorem cell_ofCells (trial : TrialId)
    (cells : (f : Field) → Option f.quantity.Carrier) (f : Field) :
    (ofCells trial cells).cell f = cells f := by
  cases f <;> rfl

@[simp] theorem cell_empty (trial : TrialId) (f : Field) : (empty trial).cell f = none := by
  cases f <;> rfl

/-- A field is read from its own cell. -/
theorem get_eq_map_cell (r : Record) (f : Field) :
    r.get f = (r.cell f).map (Value.ofCarrier f.quantity) := by
  cases f <;> rfl

/-- A field is stored in its own cell, and no other cell changes. -/
theorem cell_set (r : Record) (f : Field) (v : Value) (g : Field) :
    (r.set f v).cell g = if g = f then some (v.convert g.quantity) else r.cell g := by
  cases f <;> cases g <;> rfl

/-- Records that agree in their trial and their cells are one record. -/
theorem ext_cell {r s : Record} (hk : r.trial = s.trial) (h : ∀ f, r.cell f = s.cell f) :
    r = s := by
  have hcells (r : Record) : r = ofCells r.trial r.cell := rfl
  rw [hcells r, hcells s, hk, funext h]

@[simp] theorem get_empty (trial : TrialId) (f : Field) : (empty trial).get f = none := by
  rw [get_eq_map_cell, cell_empty, Option.map_none]

@[simp] theorem trial_set (r : Record) (f : Field) (v : Value) : (r.set f v).trial = r.trial := by
  cases f <;> rfl

@[simp] theorem get_set_self (r : Record) (f : Field) (v : Value) :
    (r.set f v).get f = some (Value.ofCarrier f.quantity (v.convert f.quantity)) := by
  rw [get_eq_map_cell, cell_set, if_pos rfl, Option.map_some]

theorem get_set_of_ne (r : Record) {f g : Field} (h : g ≠ f) (v : Value) :
    (r.set f v).get g = r.get g := by
  rw [get_eq_map_cell, cell_set, if_neg h, ← get_eq_map_cell]

@[simp] theorem setAll_nil (r : Record) : r.setAll [] = r := rfl

@[simp] theorem setAll_cons (r : Record) (fv : Field × Value) (vs : List (Field × Value)) :
    r.setAll (fv :: vs) = (r.set fv.1 fv.2).setAll vs := rfl

theorem ext_get {r s : Record} (hk : r.trial = s.trial) (hg : ∀ f, r.get f = s.get f) : r = s := by
  refine ext_cell hk fun f => ?_
  have h := congrArg (Option.map fun v => v.convert f.quantity) (hg f)
  simpa [get_eq_map_cell, Option.map_map, Function.comp_def] using h

end Record

end TrialSummary
