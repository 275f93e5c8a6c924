import Mathlib.Data.List.Forall2
import Runbook.Proofs.Value.Fault
import Runbook.Report.Basic

/-! The parts of a report: what stands at its head, the table of all documents, and a section for each of them. -/
namespace Runbook.Report

variable {most : Int} {now : Moment} {e : ReportEntry} {es : List ReportEntry} {o : Outcome} {report part body output : Text}
  {values : List Value}

/-- How many documents there are, and how many of them went well and how many did not. -/
def counts (all succeeded failed : Nat) : Text :=
  "Documents: " ++ Text.ofNat all ++ " (" ++ Text.ofNat succeeded ++ " succeeded, " ++ Text.ofNat failed ++ " failed)"

/-- What stands before the table of all documents. -/
def opening (generated : Text) (es : List ReportEntry) : Text :=
  "# Polyglot Execution Report\n\nGenerated: " ++ generated ++ "\n" ++
    counts es.length (succeeded es) (es.length - succeeded es) ++ "\n\n"

def summaryHead : Text := "| Document | Language | Executor | Status |\n|----------|----------|----------|--------|\n"

def unitHead : Text := "| Unit | Status | Code |\n|------|--------|------|\n"

def heading (e : ReportEntry) : Text := "\n## " ++ e.document ++ "\n\n"

/-- What a section tells before the table of its units and its output. -/
def sectionHead (e : ReportEntry) (finished : Text) : Text :=
  let o := e.outcome
  heading e ++ bullet "Executor" o.target ++ bullet "Finished" finished ++
    (if o.mock then bullet "Mock" (shown (detail o "note")) else []) ++
    (if o.isOk then [] else bullet "Error" (errorName o ++ " (code " ++ shown (detail o "code") ++ ")")) ++
    detailLine o "Image" "image" code ++ detailLine o "Next step" "next_step" code ++
    detailLine o "Message" "message" id

/-- A text that does not go on in the line before it. -/
def IsApart (t : Text) : Prop := ∀ c ∈ t.head?, c = '\n'

theorem IsApart.append {s t : Text} (hs : IsApart s) (ht : IsApart t) : IsApart (s ++ t) := by
  cases s with
  | nil => exact ht
  | cons c s => exact hs

theorem isApart_of_outputBlock (h : outputBlock most o = .ok output) : IsApart output := by
  have hnil : IsApart [] := by simp [IsApart]
  unfold outputBlock at h
  split at h
  · cases h
    exact hnil
  · cases h
    exact hnil
  · cases h
    simp [IsApart]
  · split at h <;> cases h
    exact hnil

theorem unitTable_of_results (h : detail o "results" = some (.list values)) : unitTable o =
    .ok ("- **Applied**: " ++ shown (detail o "applied") ++ ", **failed**: " ++ shown (detail o "failed") ++ "\n\n" ++
      unitHead ++ values.flatMap unitRow) := by
  have hhead : ("\n\n| Unit | Status | Code |\n|------|--------|------|\n" : Text) = "\n\n" ++ unitHead := by decide
  rw [unitTable, h, hhead, ← List.append_assoc]
  rfl

theorem section?_eq_ok_iff : section? most e = .ok part ↔ ∃ finished table output,
    timeLine (some (e.outcome.finishedAt.toText 'T')) = .ok finished ∧ unitTable e.outcome = .ok table ∧
      outputBlock most e.outcome = .ok output ∧ part = sectionHead e finished ++ table ++ output := by
  rw [section?]
  simp only [bind_eq_ok_iff]
  constructor
  · rintro ⟨finished, hfinished, table, htable, output, houtput, ⟨⟩⟩
    exact ⟨finished, table, output, hfinished, htable, houtput, rfl⟩
  · rintro ⟨finished, table, output, hfinished, htable, houtput, rfl⟩
    exact ⟨finished, hfinished, table, htable, output, houtput, rfl⟩

theorem sections_eq_ok_iff : sections most es = .ok body ↔
    ∃ parts, List.Forall₂ (fun e part => section? most e = .ok part) es parts ∧ body = parts.flatten := by
  induction es generalizing body with
  | nil =>
    constructor
    · rintro ⟨⟩
      exact ⟨[], .nil, rfl⟩
    · rintro ⟨_, ⟨⟩, rfl⟩
      rfl
  | cons e es ih =>
    rw [sections, bind_eq_ok_iff]
    constructor
    · rintro ⟨part, hpart, hboth⟩
      obtain ⟨rest, hrest, ⟨⟩⟩ := bind_eq_ok_iff.mp hboth
      obtain ⟨parts, hparts, rfl⟩ := ih.mp hrest
      exact ⟨part :: parts, .cons hpart hparts, rfl⟩
    · rintro ⟨_, hall, rfl⟩
      obtain ⟨part, parts, hpart, hparts, rfl⟩ := List.forall₂_cons_left_iff.mp hall
      exact ⟨part, hpart, bind_eq_ok_iff.mpr ⟨parts.flatten, ih.mpr ⟨parts, hparts, rfl⟩, rfl⟩⟩

/-- A report is its head, a row for each document and a section for each document, when none of them is refused. -/
theorem render_eq_ok_iff : render most now es = .ok report ↔
    ∃ generated parts, Display.stamp? now = some generated ∧
      List.Forall₂ (fun e part => section? most e = .ok part) es parts ∧
      report = opening generated es ++ summaryHead ++ es.flatMap summaryRow ++ parts.flatten := by
  have hhead (generated : Text) : opening generated es ++ summaryHead =
      "# Polyglot Execution Report\n\nGenerated: " ++ generated ++ "\nDocuments: " ++ Text.ofNat es.length ++ " (" ++
        Text.ofNat (succeeded es) ++ " succeeded, " ++ Text.ofNat (es.length - succeeded es) ++ " failed)\n\n" ++
        "| Document | Language | Executor | Status |\n|----------|----------|----------|--------|\n" := by
    have hcounts : ("\nDocuments: " : Text) = "\n" ++ "Documents: " := by decide
    have hend : (" failed)\n\n" : Text) = " failed)" ++ "\n\n" := by decide
    rw [hcounts, hend]
    unfold opening counts summaryHead
    simp only [List.append_assoc]
  cases hstamp : Display.stamp? now with
  | none =>
    rw [render, hstamp]
    constructor
    · rintro ⟨⟩
    · rintro ⟨_, _, ⟨⟩, -⟩
  | some generated =>
    have hrender : render most now es = sections most es >>= fun body =>
        .ok (opening generated es ++ summaryHead ++ es.flatMap summaryRow ++ body) := by
      rw [render, hstamp]
      simp only [hhead]
      rfl
    rw [hrender, bind_eq_ok_iff]
    constructor
    · rintro ⟨body, hbody, ⟨⟩⟩
      obtain ⟨parts, hparts, rfl⟩ := sections_eq_ok_iff.mp hbody
      exact ⟨generated, parts, rfl, hparts, rfl⟩
    · rintro ⟨_, parts, ⟨⟩, hparts, rfl⟩
      exact ⟨parts.flatten, sections_eq_ok_iff.mpr ⟨parts, hparts, rfl⟩, rfl⟩

/-- The head of a report counts each document once, with those that went well or with those that did not. -/
theorem exists_counts_of_render (h : render most now es = .ok report) : ∃ failed,
    succeeded es + failed = es.length ∧ counts es.length (succeeded es) failed <:+: report := by
  obtain ⟨generated, parts, -, -, rfl⟩ := render_eq_ok_iff.mp h
  have hopening : counts es.length (succeeded es) (es.length - succeeded es) <:+: opening generated es :=
    List.infix_append _ _ _
  refine ⟨es.length - succeeded es, Nat.add_sub_of_le (List.length_filter_le _ _), ?_⟩
  simp only [List.append_assoc]
  exact hopening.trans (List.prefix_append _ _).isInfix

end Runbook.Report
