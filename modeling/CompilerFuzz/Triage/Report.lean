/-
  CompilerFuzz.Triage.Report

  The report of a log: the severities it has verdicts of, for each of them the keys in
  ascending order, and under each key its payloads in ascending order. A report is the
  fold of one insertion rule over the verdicts of the lines; the first line that the
  classifier rejects fails it whole. The order is part of every report
  (`Groups.WellFormed`): entering a verdict and joining two reports keep it.
-/
import CompilerFuzz.Sorted
import CompilerFuzz.Triage.Log
import CompilerFuzz.Triage.Verdict

namespace CompilerFuzz.Triage

open CompilerFuzz.Text

/-! ## Payloads -/

/-- The payloads under one key, ascending by bytes. -/
abbrev Payloads := List String

/-- Payloads as they stand in a report: one at least, in ascending order. -/
structure Payloads.WellFormed (ps : Payloads) : Prop where
  nonempty : ps ≠ []
  ascending : Sorted.Ascending byteOrder ps

instance (ps : Payloads) : Decidable ps.WellFormed :=
  decidable_of_iff (ps ≠ [] ∧ Sorted.Ascending byteOrder ps)
    ⟨fun h => ⟨h.1, h.2⟩, fun h => ⟨h.nonempty, h.ascending⟩⟩

namespace Merge

/-- The payloads under a key after one more payload. -/
def combine (rule : Merge) (payload : String) (old : Option Payloads) : Payloads :=
  match rule with
  | .accumulate => Sorted.insert byteOrder payload (old.getD [])
  | .replace => [payload]

/-- The payloads under a key of which the later log holds `later`. -/
def join (rule : Merge) (later : Payloads) (earlier : Option Payloads) : Payloads :=
  match rule with
  | .accumulate => Sorted.union byteOrder (earlier.getD []) later
  | .replace => later

section WellFormed

variable (rule : Merge) (old : Option Payloads) (hold : Sorted.Ascending byteOrder (old.getD []))
include hold

theorem wellFormed_combine (payload : String) : (rule.combine payload old).WellFormed := by
  cases rule with
  | accumulate => exact ⟨Sorted.insert_ne_nil _ _ _, Sorted.ascending_insert payload hold⟩
  | replace => exact ⟨List.cons_ne_nil _ _, List.pairwise_singleton _ _⟩

theorem wellFormed_join {later : Payloads} (h : later.WellFormed) :
    (rule.join later old).WellFormed := by
  cases rule with
  | accumulate => exact ⟨Sorted.union_ne_nil _ h.nonempty, Sorted.ascending_union later hold⟩
  | replace => exact h

end WellFormed

end Merge

/-! ## The entries of one severity -/

/-- The entries of one severity, ascending by key. -/
abbrev Group := List (SortKey × Payloads)

namespace Group

/-- Keys ascend, and under each of them stand payloads. -/
structure WellFormed (g : Group) : Prop where
  keys : Sorted.AscendingKeys SortKey.order g
  payloads : ∀ e ∈ g, e.2.WellFormed

instance (g : Group) : Decidable g.WellFormed :=
  decidable_of_iff (Sorted.AscendingKeys SortKey.order g ∧ ∀ e ∈ g, e.2.WellFormed)
    ⟨fun h => ⟨h.1, h.2⟩, fun h => ⟨h.keys, h.payloads⟩⟩

theorem wellFormed_nil : WellFormed [] := ⟨List.Pairwise.nil, List.forall_mem_nil _⟩

/-- Enters one payload under a key. -/
def enter (rule : Merge) (key : SortKey) (payload : String) (g : Group) : Group :=
  Sorted.alter SortKey.order key (rule.combine payload) g

/-- Joins two groups, the second being the later one. -/
def merge (rule : Merge) (earlier later : Group) : Group :=
  Sorted.alterAll SortKey.order (fun e => rule.join e.2) later earlier

theorem WellFormed.enter {g : Group} (h : g.WellFormed) (rule : Merge) (key : SortKey)
    (payload : String) : (g.enter rule key payload).WellFormed where
  keys := Sorted.ascendingKeys_alter _ _ h.keys
  payloads := Sorted.forall_mem_alter (rule.wellFormed_combine none List.Pairwise.nil payload)
    (fun ps hps => rule.wellFormed_combine (some ps) hps.ascending payload) h.payloads

theorem WellFormed.merge {g g' : Group} (h : g.WellFormed) (h' : g'.WellFormed) (rule : Merge) :
    (g.merge rule g').WellFormed where
  keys := Sorted.ascendingKeys_alterAll _ _ h.keys
  payloads := Sorted.forall_mem_alterAll _
    (fun e he => rule.wellFormed_join none List.Pairwise.nil (h'.payloads e he))
    (fun e he ps hps => rule.wellFormed_join (some ps) hps.ascending (h'.payloads e he)) h.payloads

end Group

/-! ## All severities -/

/-- The severities that have entries, in ascending order, each with its entries. -/
abbrev Groups := List (Severity × Group)

namespace Groups

/-- Severities ascend, and none is there without entries. -/
structure WellFormed (gs : Groups) : Prop where
  severities : Sorted.AscendingKeys Severity.order gs
  groups : ∀ g ∈ gs, g.2 ≠ [] ∧ g.2.WellFormed

instance (gs : Groups) : Decidable gs.WellFormed :=
  decidable_of_iff (Sorted.AscendingKeys Severity.order gs ∧ ∀ g ∈ gs, g.2 ≠ [] ∧ g.2.WellFormed)
    ⟨fun h => ⟨h.1, h.2⟩, fun h => ⟨h.severities, h.groups⟩⟩

/-- Enters one verdict. -/
def enter (rules : Severity → Merge) (gs : Groups) (v : Verdict) : Groups :=
  Sorted.alter Severity.order v.severity
    (fun old => Group.enter (rules v.severity) v.key v.payload (old.getD [])) gs

/-- Joins the groups of two logs, the second being the later one. -/
def merge (rules : Severity → Merge) (earlier later : Groups) : Groups :=
  Sorted.alterAll Severity.order (fun g old => Group.merge (rules g.1) (old.getD []) g.2) later
    earlier

theorem WellFormed.enter {gs : Groups} (h : gs.WellFormed) (rules : Severity → Merge)
    (v : Verdict) : (gs.enter rules v).WellFormed where
  severities := Sorted.ascendingKeys_alter _ _ h.severities
  groups := by
    have hentered : ∀ g : Group, g.WellFormed →
        g.enter (rules v.severity) v.key v.payload ≠ [] ∧
          (g.enter (rules v.severity) v.key v.payload).WellFormed :=
      fun g hg => ⟨Sorted.alter_ne_nil _ _ _, hg.enter _ _ _⟩
    exact Sorted.forall_mem_alter (P := fun g : Group => g ≠ [] ∧ g.WellFormed)
      (hentered [] Group.wellFormed_nil) (fun g hg => hentered g hg.2) h.groups

theorem WellFormed.merge {gs gs' : Groups} (h : gs.WellFormed) (h' : gs'.WellFormed)
    (rules : Severity → Merge) : (gs.merge rules gs').WellFormed where
  severities := Sorted.ascendingKeys_alterAll _ _ h.severities
  groups := by
    have hjoined : ∀ e ∈ gs', ∀ g : Group, g.WellFormed →
        g.merge (rules e.1) e.2 ≠ [] ∧ (g.merge (rules e.1) e.2).WellFormed :=
      fun e he g hg => ⟨Sorted.alterAll_ne_nil _ (h'.groups e he).1 _,
        hg.merge (h'.groups e he).2 _⟩
    exact Sorted.forall_mem_alterAll (P := fun g : Group => g ≠ [] ∧ g.WellFormed) _
      (fun e he => hjoined e he [] Group.wellFormed_nil)
      (fun e he g hg => hjoined e he g hg.2) h.groups

end Groups

/-- A grouped and ordered report. -/
structure Report where
  groups : Groups
  layout : Layout
  wellFormed : groups.WellFormed
  deriving DecidableEq, Repr

namespace Report

/-- A report without entries. -/
def empty (layout : Layout) : Report := ⟨[], layout, ⟨List.Pairwise.nil, List.forall_mem_nil _⟩⟩

/-- The entries of one severity, in report order. -/
def entries (r : Report) (s : Severity) : Group :=
  (Sorted.find? Severity.order s r.groups).getD []

/-- The payloads under one key of a severity. -/
def payloads? (r : Report) (s : Severity) (key : SortKey) : Option Payloads :=
  Sorted.find? SortKey.order key (r.entries s)

/-- Enters one verdict. -/
def enter (rules : Severity → Merge) (r : Report) (v : Verdict) : Report :=
  ⟨r.groups.enter rules v, r.layout, r.wellFormed.enter rules v⟩

/-- Enters what one line says. -/
def addLine (c : Classifier) (r : Report) (line : String) : Except TriageError Report :=
  match c.classify line with
  | .error e => .error e
  | .ok none => .ok r
  | .ok (some v) => .ok (r.enter c.merge v)

/-- Enters lines one after another, up to the first that is rejected. -/
def addLines (c : Classifier) (r : Report) : List String → Except TriageError Report
  | [] => .ok r
  | line :: rest =>
    match addLine c r line with
    | .error e => .error e
    | .ok r => addLines c r rest

/-- The report of a log. -/
def build (c : Classifier) (log : LogLines) : Except TriageError Report :=
  addLines c (empty c.layout) log.lines

/-- How many keys one severity has. -/
def count (r : Report) (s : Severity) : Nat :=
  (r.entries s).length

/-- Has no line been recognised? -/
def isEmpty (r : Report) : Bool :=
  r.groups.all fun g => g.2.isEmpty

/-- Joins the reports of two logs, the second being the later one. -/
def merge (rules : Severity → Merge) (earlier later : Report) : Report :=
  ⟨earlier.groups.merge rules later.groups, earlier.layout,
    earlier.wellFormed.merge later.wellFormed rules⟩

end Report

end CompilerFuzz.Triage
