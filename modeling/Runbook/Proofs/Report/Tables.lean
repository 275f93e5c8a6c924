import Runbook.Proofs.Report.Rendered
import Runbook.Proofs.Report.Row
import Runbook.Proofs.Text.Digit
import Runbook.Proofs.Value.Fields

/-!
The tables of a report: one row for each document, and for each document of a batch one row for each unit. The label of a
unit may hold any bars but no line feed. The name of a document is not escaped, so a bar in it breaks its row as well.
-/
namespace Runbook.Report

variable {most : Int} {now : Moment} {e : ReportEntry} {es : List ReportEntry} {o : Outcome}
  {units : List UnitOutcome} {report part : Text}

/-! The table of all documents -/

def languageCell (e : ReportEntry) : Text :=
  match e.language with
  | some (c :: t) => c :: t
  | _ => "n/a"

def summaryCells (e : ReportEntry) : List Text := [code e.document, languageCell e, e.outcome.target, status e.outcome]

def summaryRows (es : List ReportEntry) : Text := es.flatMap fun e => row (summaryCells e)

theorem fitsCell_kind (k : FailureKind) : FitsCell k.name.toList := by cases k <;> decide

theorem fitsCell_errorName (error : Option FailureKind) : FitsCell ((error.map fun k => k.name.toList).getD []) := by
  cases error with
  | none => decide
  | some k => exact fitsCell_kind k

theorem fitsCell_status (o : Outcome) : FitsCell (status o) := by
  rw [status]
  split
  · split <;> decide
  · exact fitsCell_errorName o.error

theorem fitsCell_languageCell : FitsCell (languageCell e) ↔ ∀ l ∈ e.language, FitsCell l := by
  have hna : FitsCell "n/a" := by decide
  have hempty : FitsCell [] := by decide
  unfold languageCell
  split
  · rename_i c t hlanguage
    simp [hlanguage]
  · rename_i hlanguage
    refine iff_of_true hna fun l hl => ?_
    cases l with
    | nil => exact hempty
    | cons c t => exact (hlanguage c t hl).elim

/-- The names that the report writes as they are fit into their cells. -/
structure HasPlainNames (e : ReportEntry) : Prop where
  document : FitsCell e.document
  language : ∀ l ∈ e.language, FitsCell l
  target : FitsCell e.outcome.target

theorem isTable_summaryRows_iff (es : List ReportEntry) :
    IsTable es.length 4 (summaryRows es) ↔ ∀ e ∈ es, HasPlainNames e := by
  rw [summaryRows, isTable_rows_iff (f := summaryCells) (by decide) fun e _ => rfl]
  refine forall₂_congr fun e _ => ?_
  simp only [summaryCells, List.forall_mem_cons, fitsCell_code, fitsCell_languageCell]
  constructor
  · rintro ⟨hdocument, hlanguage, htarget, -⟩
    exact ⟨hdocument, hlanguage, htarget⟩
  · rintro ⟨hdocument, hlanguage, htarget⟩
    exact ⟨hdocument, hlanguage, htarget, fitsCell_status _, by simp⟩

/-! The table of the units of a batch -/

/-- The outcome of a batch of these units, with any other details beside them. -/
def IsBatchOf (units : List UnitOutcome) (o : Outcome) : Prop :=
  ∃ target mock details clock, "results".toList ∉ Fields.keys details ∧ o = Outcome.batch target units mock details clock

theorem IsBatchOf.results (h : IsBatchOf units o) : detail o "results" = some (.list (units.map UnitOutcome.toValue)) := by
  obtain ⟨target, mock, details, clock, hdetails, rfl⟩ := h
  exact Fields.get?_merge_of_not_mem hdetails _

def unitCells (u : UnitOutcome) : List Text :=
  [code (escapeBars u.unit), if u.isOk then "ok" else (u.error.map fun k => k.name.toList).getD [], Text.ofInt u.code]

def unitRows (units : List UnitOutcome) : Text := units.flatMap fun u => row (unitCells u)

theorem unitRow_toValue (u : UnitOutcome) : unitRow u.toValue = row (unitCells u) := by
  have hunit : u.toValue.get? "unit" = some (.text u.unit) := rfl
  have hok : u.toValue.get? "ok" = some (.bool u.isOk) := rfl
  have hcode : u.toValue.get? "code" = some (.int u.code) := rfl
  have herror : u.toValue.get? "error" = u.error.map fun k => .text k.name := by
    rcases u with ⟨unit, isOk, output, code, _ | k⟩ <;> rfl
  rw [unitRow, unitCells, hunit, hok, hcode, herror]
  cases u.error <;> cases u.isOk <;> rfl

theorem fitsCell_ofInt (n : Int) : FitsCell (Text.ofInt n) := by
  have hnat (n : Nat) : ∀ c ∈ Text.ofNat n, c ≠ '\n' ∧ c ≠ '|' := by
    intro c hc
    have hdigit := Text.isAlphanum_of_mem_ofNat hc
    constructor <;> rintro rfl <;> exact absurd hdigit (by decide)
  refine fitsCell_of_forall ?_
  cases n with
  | ofNat n => exact hnat n
  | negSucc n => exact List.forall_mem_cons.mpr ⟨by decide, hnat (n + 1)⟩

theorem flatMap_unitRow (units : List UnitOutcome) :
    (units.map UnitOutcome.toValue).flatMap unitRow = unitRows units := by
  rw [List.flatMap_map, unitRows]
  simp only [unitRow_toValue]

theorem isTable_unitRows_iff (units : List UnitOutcome) :
    IsTable units.length 3 (unitRows units) ↔ ∀ u ∈ units, '\n' ∉ u.unit := by
  have hstatus (u : UnitOutcome) :
      FitsCell (if u.isOk then "ok" else (u.error.map fun k => k.name.toList).getD []) := by
    split
    · decide
    · exact fitsCell_errorName u.error
  rw [unitRows, isTable_rows_iff (f := unitCells) (by decide) fun u _ => rfl]
  refine forall₂_congr fun u _ => ?_
  simp only [unitCells, List.forall_mem_cons, fitsCell_code, fitsCell_escapeBars, hstatus, fitsCell_ofInt]
  simp

/-! The report -/

/-- A section begins with the name of its document. The units of a batch stand in one table of three cells, which ends
before anything else comes, as long as no line feed stands in their labels. -/
structure HasUnitTable (e : ReportEntry) (part : Text) : Prop where
  heading : heading e <+: part
  units : ∀ units, IsBatchOf units e.outcome → ∃ above below,
    part = above ++ unitHead ++ unitRows units ++ below ∧ IsApart below ∧
      (IsTable units.length 3 (unitRows units) ↔ ∀ u ∈ units, '\n' ∉ u.unit)

theorem hasUnitTable_of_section? (h : section? most e = .ok part) : HasUnitTable e part := by
  obtain ⟨finished, table, output, -, htable, houtput, rfl⟩ := section?_eq_ok_iff.mp h
  refine ⟨?_, fun units hunits => ?_⟩
  · rw [sectionHead]
    simp only [List.append_assoc]
    exact List.prefix_append _ _
  · rw [unitTable_of_results hunits.results] at htable
    rw [← Except.ok.inj htable, flatMap_unitRow]
    simp only [← List.append_assoc]
    exact ⟨_, output, rfl, isApart_of_outputBlock houtput, isTable_unitRows_iff units⟩

theorem HasUnitTable.isApart (h : HasUnitTable e part) : IsApart part := by
  obtain ⟨rest, rfl⟩ := h.heading
  intro c hc
  exact (Option.some.inj hc).symm

/-- A report has one table with a row of four cells for each document exactly when the names in it fit their cells. The
table ends before the sections, of which there is one for each document. -/
theorem tables_of_render (h : render most now es = .ok report) : ∃ generated parts,
    report = opening generated es ++ summaryHead ++ summaryRows es ++ parts.flatten ∧ IsApart parts.flatten ∧
      (IsTable es.length 4 (summaryRows es) ↔ ∀ e ∈ es, HasPlainNames e) ∧ List.Forall₂ HasUnitTable es parts := by
  obtain ⟨generated, parts, -, hparts, hreport⟩ := render_eq_ok_iff.mp h
  have hsections : List.Forall₂ HasUnitTable es parts := hparts.imp fun _ _ => hasUnitTable_of_section?
  refine ⟨generated, parts, hreport, ?_, isTable_summaryRows_iff es, hsections⟩
  clear hparts hreport h
  induction hsections with
  | nil => simp [IsApart]
  | cons hfirst _ ih => exact hfirst.isApart.append ih

/-- Bars and backslashes in the labels of units, and in the name of a document a bar after a backslash. -/
def barredUnits : List UnitOutcome :=
  [⟨"git commit -m 'x|y\\|'", true, [], 0, none⟩, ⟨"|", false, [], 1, some .toolFailed⟩]

theorem tables_of_render_barredUnits :
    let clock : Moment := ⟨⟨2024, 1, 2⟩, 3, 4, 5, 0, none⟩
    let e : ReportEntry := { document := "a\\|b", outcome := Outcome.batch "git" barredUnits false [] clock }
    ∃ report generated part, render 40 clock [e] = .ok report ∧
      report = opening generated [e] ++ summaryHead ++ summaryRows [e] ++ part ∧ IsTable 1 4 (summaryRows [e]) ∧
      ∃ above below, part = above ++ unitHead ++ unitRows barredUnits ++ below ∧ IsTable 2 3 (unitRows barredUnits) := by
  intro clock e
  have hok : (render 40 clock [e]).isOk = true := by decide +kernel
  cases hrender : render 40 clock [e] with
  | error f =>
    rw [hrender] at hok
    cases hok
  | ok report =>
    obtain ⟨generated, parts, hreport, -, hrows, hparts⟩ := tables_of_render hrender
    obtain ⟨part, _, hpart, hnil, rfl⟩ := List.forall₂_cons_left_iff.mp hparts
    obtain rfl := List.forall₂_nil_left_iff.mp hnil
    have hbatch : IsBatchOf barredUnits e.outcome := ⟨_, _, _, _, by simp [Fields.keys], rfl⟩
    obtain ⟨above, below, hunits, -, htable⟩ := hpart.units _ hbatch
    refine ⟨report, generated, part, rfl, ?_, hrows.mpr ?_, above, below, hunits, htable.mpr (by decide)⟩
    · rw [hreport, List.flatten_singleton]
    · rw [List.forall_mem_singleton]
      exact ⟨by decide, by simp [e], by decide⟩

/-- The bar in the name of a document parts its cell. -/
theorem not_isTable_barredName :
    let clock : Moment := ⟨⟨2024, 1, 2⟩, 3, 4, 5, 0, none⟩
    let e : ReportEntry := { document := "a|b", outcome := Outcome.success "noop" false [] clock }
    (render 40 clock [e]).toOption = some
        (opening "2024-01-02 03:04:05 UTC" [e] ++ summaryHead ++ "| \x60a|b\x60 | n/a | noop | ok |\n" ++
          "\n## a|b\n\n- **Executor**: noop\n- **Finished**: 2024-01-02 03:04:05 UTC\n") ∧
      IsRow 5 "| \x60a|b\x60 | n/a | noop | ok |" ∧ ¬ IsTable 1 4 "| \x60a|b\x60 | n/a | noop | ok |\n" := by
  intro clock e
  refine ⟨by decide +kernel, ⟨by decide, rfl, ⟨"| \x60a|b\x60 | n/a | noop | ok ", by decide, by decide⟩, by decide⟩, fun htable => ?_⟩
  have hplain := (isTable_summaryRows_iff [e]).mp htable
  exact absurd (hplain e (List.mem_singleton_self e)).document (by decide)

end Runbook.Report
