import Runbook.Settings.Reading

/-!
Settings are taken, or they are refused with what is wrong with them, unless a value is met that the part it stands in
cannot take up at all. What has been taken is in order.
-/
namespace Runbook

/-- A fault that says what is wrong with the settings. The other ones are those of a step that could not be made. -/
def SettingsFault.IsRefusal : SettingsFault → Prop
  | .unset _ | .notAMapping _ | .timeout _ | .client _ | .format _ | .malformed _ | .noMapping _ => True
  | _ => False

namespace Settings

variable {α β : Type} {P : α → Prop} {Q : β → Prop} {unfit refused : Prop} {step : Except SettingsFault α}
  {s : Settings} {data v : Value} {valid : List Text} {fault : Value → SettingsFault}

/-- Settings that can be run with. -/
structure IsValid (s : Settings) : Prop where
  timeout : 0 < s.timeout
  client : ∃ t ∈ (["sqlite3", "psql"] : List Text), s.sqlClient = .text t
  format : ∃ t ∈ (["markdown", "json"] : List Text), s.outputFormat = .text t

/-- How a step of the reading ends: it stops where it meets what is unfit for it. -/
inductive Ending (P : α → Prop) (unfit refused : Prop) : Except SettingsFault α → Prop
  | taken {a : α} (ha : P a) (hfit : ¬ unfit) (hgood : ¬ refused) : Ending P unfit refused (.ok a)
  | refused {f : SettingsFault} (hf : f.IsRefusal) (hfit : ¬ unfit) (hbad : refused) : Ending P unfit refused (.error f)
  | stopped {f : SettingsFault} (hf : ¬ f.IsRefusal) (hunfit : unfit) : Ending P unfit refused (.error f)

theorem Ending.map {f : α → β} (h : Ending P unfit refused step) (hf : ∀ a, P a → Q (f a)) :
    Ending Q unfit refused (step >>= fun a => .ok (f a)) := by
  cases h with
  | taken ha hfit hgood => exact .taken (hf _ ha) hfit hgood
  | refused hf' hfit hbad => exact .refused hf' hfit hbad
  | stopped hf' hunfit => exact .stopped hf' hunfit

/-- An entry that is not there has a value that is taken. -/
theorem ending_entry {check : Value → Except SettingsFault α} {unfit refused : Value → Prop}
    (hcheck : ∀ v, Ending P (unfit v) (refused v) (check v)) (entry : Option Value) (default : Value) {a : α}
    (hdefault : check default = .ok a) (ha : P a) :
    Ending P (∃ v, entry = some v ∧ unfit v) (∃ v, entry = some v ∧ refused v) (check (entry.getD default)) := by
  cases entry with
  | none =>
    rw [Option.getD_none, hdefault]
    exact .taken ha (by simp) (by simp)
  | some v => simpa using hcheck v

/-! Values of an entry -/

/-- A time limit that is no integer, or one that is out of range and has too many digits for the fault to tell it. -/
inductive IsUnfitLimit (v : Value) : Prop
  | noInteger {f : IntegerFault} (h : v.toInteger = .error f) : IsUnfitLimit v
  | long {n : Int} (h : v.toInteger = .ok n) (hn : n ≤ 0) (hlong : (Value.int n).isWritable = false) : IsUnfitLimit v

/-- Arguments that are no sequence, or hold what cannot be written down. -/
inductive IsUnfitArguments (v : Value) : Prop
  | noSequence (h : v.elements? = none) : IsUnfitArguments v
  | long {vs : List Value} {a : Value} (h : v.elements? = some vs) (ha : a ∈ vs) (hlong : a.isWritable = false) :
    IsUnfitArguments v

/-- A choice that cannot be looked up, or that no fault can tell. -/
inductive IsUnfitChoice (v : Value) : Prop
  | noKey (h : v.isKey = false) : IsUnfitChoice v
  | long (hlong : v.isWritable = false) : IsUnfitChoice v

theorem ending_timeoutOf (v : Value) :
    Ending (0 < ·) (IsUnfitLimit v) (∃ n, v.toInteger = .ok n ∧ n ≤ 0) (timeoutOf v) := by
  unfold timeoutOf
  split
  · rename_i n hn
    split
    · rename_i hpos
      refine .taken hpos ?_ ?_
      · rintro (hf | ⟨hn', hle, -⟩)
        · cases hn.symm.trans hf
        · cases hn.symm.trans hn'
          omega
      · rintro ⟨n', hn', hle⟩
        cases hn.symm.trans hn'
        omega
    · rename_i hpos
      have hle : n ≤ 0 := Int.not_lt.mp hpos
      rw [telling]
      split
      · rename_i hshort
        refine .refused trivial ?_ ⟨n, hn, hle⟩
        rintro (hf | ⟨hn', -, hlong⟩)
        · cases hn.symm.trans hf
        · cases hn.symm.trans hn'
          cases hshort.symm.trans hlong
      · rename_i hlong
        exact .stopped id (.long hn hle (Bool.eq_false_iff.mpr hlong))
  · rename_i f hf
    exact .stopped id (.noInteger hf)

theorem ending_argumentsOf (v : Value) : Ending (fun _ => True) (IsUnfitArguments v) False (argumentsOf v) := by
  unfold argumentsOf
  split
  · rename_i vs hvs
    split
    · rename_i hall
      refine .taken trivial ?_ id
      rintro (hnone | ⟨hvs', ha, hlong⟩)
      · cases hvs.symm.trans hnone
      · cases hvs.symm.trans hvs'
        cases (List.all_eq_true.mp hall _ ha).symm.trans hlong
    · rename_i hall
      obtain ⟨a, ha, hlong⟩ : ∃ a ∈ vs, a.isWritable = false := by simpa using hall
      exact .stopped id (.long hvs ha hlong)
  · rename_i hnone
    exact .stopped id (.noSequence hnone)

theorem ending_choose (hfault : ∀ v, (fault v).IsRefusal) (valid : List Text) (v : Value) :
    Ending (fun _ => ∃ t ∈ valid, v = .text t) (IsUnfitChoice v) (∀ t ∈ valid, v ≠ .text t) (choose valid fault v) := by
  unfold choose
  split
  · rename_i hkey
    exact .stopped id (.noKey (by simpa using hkey))
  · rename_i hkey
    have hkey : v.isKey = true := by simpa using hkey
    split
    · rename_i t _
      have hfit : ¬ IsUnfitChoice (.text t) := by rintro (⟨⟨⟩⟩ | ⟨⟨⟩⟩)
      split
      · rename_i ht
        exact .taken ⟨t, ht, rfl⟩ hfit fun hnone => hnone t ht rfl
      · rename_i ht
        refine .refused (hfault _) hfit ?_
        rintro t' ht' ⟨⟩
        exact ht ht'
    · rename_i htext
      rw [telling]
      split
      · rename_i hshort
        refine .refused (hfault _) ?_ fun t _ => htext t
        rintro (hkey' | hlong)
        · cases hkey.symm.trans hkey'
        · cases hshort.symm.trans hlong
      · rename_i hlong
        exact .stopped id (.long (Bool.eq_false_iff.mpr hlong))

/-- A choice that is made in an entry, or by default, is what the step goes on with. -/
theorem ending_choice (fault : Value → SettingsFault) (hfault : ∀ v, (fault v).IsRefusal) {default : Value}
    (hdefault : ∃ t ∈ valid, default = .text t) (entry : Option Value) {make : Value → α}
    (hmake : ∀ v, (∃ t ∈ valid, v = .text t) → P (make v)) :
    Ending P (∃ v, entry = some v ∧ IsUnfitChoice v) (∃ v, entry = some v ∧ ∀ t ∈ valid, v ≠ .text t)
      (choose valid fault (entry.getD default) >>= fun _ => .ok (make (entry.getD default))) := by
  have hchosen : choose valid fault default = .ok () := by
    obtain ⟨t, ht, rfl⟩ := hdefault
    exact if_pos ht
  have hcheck (v : Value) := (ending_choose hfault valid v).map (f := fun _ => make v) fun _ hv => hmake v hv
  exact ending_entry hcheck entry default (by rw [hchosen]; rfl) (hmake default hdefault)

/-! Parts -/

inductive Part
  | execution
  | docker
  | terraform
  | kubernetes
  | git
  | shell
  | sql
  | output
  | ci

namespace Part

def all : List Part := [.execution, .docker, .terraform, .kubernetes, .git, .shell, .sql, .output, .ci]

def name : Part → String
  | .execution => "execution"
  | .docker => "docker"
  | .terraform => "terraform"
  | .kubernetes => "kubernetes"
  | .git => "git"
  | .shell => "shell"
  | .sql => "sql"
  | .output => "output"
  | .ci => "ci"

def read : Part → Settings → Value → Except SettingsFault Settings
  | .execution => readExecution
  | .docker => readDocker
  | .terraform => readTerraform
  | .kubernetes => readKubernetes
  | .git => readGit
  | .shell => readShell
  | .sql => readSql
  | .output => readOutput
  | .ci => readCi

theorem parts_eq : parts = all.map fun part => (part.name, part.read) := rfl

/-- The entries of a part have a value that it cannot take up. -/
def IsUnfit : Part → Value → Prop
  | .execution, p => ∃ v, p.get? "timeout" = some v ∧ IsUnfitLimit v
  | .terraform, p => ∃ v, p.get? "plan_args" = some v ∧ IsUnfitArguments v
  | .sql, p => ∃ v, p.get? "client" = some v ∧ IsUnfitChoice v
  | .output, p => ∃ v, p.get? "format" = some v ∧ IsUnfitChoice v
  | _, _ => False

/-- The entries of a part have a value that may not be chosen. -/
def IsRefused : Part → Value → Prop
  | .execution, p => ∃ v, p.get? "timeout" = some v ∧ ∃ n, v.toInteger = .ok n ∧ n ≤ 0
  | .sql, p => ∃ v, p.get? "client" = some v ∧ ∀ t ∈ sqlClients, v ≠ .text t
  | .output, p => ∃ v, p.get? "format" = some v ∧ ∀ t ∈ outputFormats, v ≠ .text t
  | _, _ => False

/-- What one part does to settings that are in order. -/
theorem ending_read (hs : s.IsValid) (part : Part) (p : Value) :
    Ending IsValid (part.IsUnfit p) (part.IsRefused p) (part.read s p) := by
  cases part with
  | execution =>
    have hlimit := ending_entry ending_timeoutOf (p.get? "timeout") (.int s.timeout) (if_pos hs.timeout) hs.timeout
    exact hlimit.map fun n hn => ⟨hn, hs.client, hs.format⟩
  | terraform =>
    have harguments := ending_entry ending_argumentsOf (p.get? "plan_args") (.list []) rfl trivial
    have hnone : (∃ v, p.get? "plan_args" = some v ∧ False) ↔ False := by simp
    rw [hnone] at harguments
    exact harguments.map fun _ _ => ⟨hs.timeout, hs.client, hs.format⟩
  | sql =>
    have hmade (v : Value) (hv : ∃ t ∈ sqlClients, v = .text t) :
        IsValid { s with sqlClient := v, sqlDatabase := (p.get? "database").getD .null } :=
      ⟨hs.timeout, hv, hs.format⟩
    exact ending_choice .client (fun _ => trivial) hs.client (p.get? "client") hmade
  | output =>
    have hmade (v : Value) (hv : ∃ t ∈ outputFormats, v = .text t) :
        IsValid { s with outputFormat := v, outputPath := (p.get? "path").getD s.outputPath } :=
      ⟨hs.timeout, hs.client, hv⟩
    exact ending_choice .format (fun _ => trivial) hs.format (p.get? "format") hmade
  | docker | kubernetes | git | shell | ci => exact .taken ⟨hs.timeout, hs.client, hs.format⟩ id id

end Part

/-! All parts, one after the other -/

/-- Under the name of a part stands nothing, or a mapping that the part takes. -/
inductive IsSound (data : Value) (part : Part) : Prop
  | absent (h : part? part.name.toList data = .ok none) : IsSound data part
  | taken {p : Value} (h : part? part.name.toList data = .ok (some p)) (hfit : ¬ part.IsUnfit p)
    (hgood : ¬ part.IsRefused p) : IsSound data part

/-- Under the name of a part stands a mapping with a value that the part cannot take up. -/
def HoldsUnfit (data : Value) (part : Part) : Prop :=
  ∃ p, part? part.name.toList data = .ok (some p) ∧ part.IsUnfit p

/-- Under the name of a part stands no mapping, or one with a value that may not be chosen. -/
inductive IsBad (data : Value) (part : Part) : Prop
  | noMapping {f : SettingsFault} (h : part? part.name.toList data = .error f) : IsBad data part
  | refused {p : Value} (h : part? part.name.toList data = .ok (some p)) (hfit : ¬ part.IsUnfit p)
    (hbad : part.IsRefused p) : IsBad data part

/-- The first of the parts that is not sound is as described. -/
def Meets (data : Value) (parts : List Part) (H : Part → Prop) : Prop :=
  ∃ before part after, parts = before ++ part :: after ∧ (∀ q ∈ before, IsSound data q) ∧ H part

variable {H : Part → Prop} {part : Part} {rest : List Part} {p : Value}

theorem isRefusal_of_part? {name : Text} {f : SettingsFault} (h : part? name data = .error f) : f.IsRefusal := by
  unfold part? at h
  split at h
  · cases h
  · split at h
    · cases h
    · split at h
      · cases h
      · cases h
        trivial

theorem meets_head (h : H part) (rest : List Part) : Meets data (part :: rest) H := ⟨[], part, rest, rfl, by simp, h⟩

theorem meets_cons_iff (hpart : ¬ H part) :
    Meets data (part :: rest) H ↔ IsSound data part ∧ Meets data rest H := by
  constructor
  · rintro ⟨before, q, after, hparts, hbefore, hq⟩
    cases before with
    | nil =>
      cases hparts
      exact (hpart hq).elim
    | cons q' before =>
      cases hparts
      rw [List.forall_mem_cons] at hbefore
      exact ⟨hbefore.1, before, q, after, rfl, hbefore.2, hq⟩
  · rintro ⟨hsound, before, q, after, rfl, hbefore, hq⟩
    exact ⟨part :: before, q, after, rfl, List.forall_mem_cons.mpr ⟨hsound, hbefore⟩, hq⟩

theorem holdsUnfit_iff (h : part? part.name.toList data = .ok (some p)) : HoldsUnfit data part ↔ part.IsUnfit p := by
  constructor
  · rintro ⟨p', hp', hunfit⟩
    cases h.symm.trans hp'
    exact hunfit
  · exact fun hunfit => ⟨p, h, hunfit⟩

theorem isBad_iff (h : part? part.name.toList data = .ok (some p)) :
    IsBad data part ↔ ¬ part.IsUnfit p ∧ part.IsRefused p := by
  constructor
  · rintro (hp' | ⟨hp', hfit, hbad⟩)
    · cases h.symm.trans hp'
    · cases h.symm.trans hp'
      exact ⟨hfit, hbad⟩
  · exact fun ⟨hfit, hbad⟩ => .refused h hfit hbad

theorem isSound_iff (h : part? part.name.toList data = .ok (some p)) :
    IsSound data part ↔ ¬ part.IsUnfit p ∧ ¬ part.IsRefused p := by
  constructor
  · rintro (hp' | ⟨hp', hfit, hgood⟩)
    · cases h.symm.trans hp'
    · cases h.symm.trans hp'
      exact ⟨hfit, hgood⟩
  · exact fun ⟨hfit, hgood⟩ => .taken h hfit hgood

/-- One after the other, the parts keep settings in order, and the first one that is not sound ends the reading. -/
theorem ending_readParts (hs : s.IsValid) (data : Value) (ps : List Part) :
    Ending IsValid (Meets data ps (HoldsUnfit data)) (Meets data ps (IsBad data))
      (readParts data (ps.map fun part => (part.name, part.read)) s) := by
  have hnone {H : Part → Prop} : ¬ Meets data [] H := by
    rintro ⟨before, part, after, hparts, -⟩
    cases before <;> cases hparts
  induction ps generalizing s with
  | nil => exact .taken hs hnone hnone
  | cons part rest ih =>
    rw [List.map_cons, readParts]
    cases hpart : part? part.name.toList data with
    | error f =>
      have hfit : ¬ HoldsUnfit data part := by
        rintro ⟨p, hp, -⟩
        cases hpart.symm.trans hp
      refine .refused (isRefusal_of_part? hpart) ?_ (meets_head (.noMapping hpart) rest)
      rw [meets_cons_iff hfit]
      rintro ⟨hsound | hsound, -⟩ <;> cases hpart.symm.trans hsound
    | ok found =>
      cases found with
      | none =>
        have hfit : ¬ HoldsUnfit data part := by
          rintro ⟨p, hp, -⟩
          cases hpart.symm.trans hp
        have hgood : ¬ IsBad data part := by rintro (h | h) <;> cases hpart.symm.trans h
        rw [meets_cons_iff hfit, meets_cons_iff hgood, and_iff_right (.absent hpart), and_iff_right (.absent hpart)]
        exact ih hs
      | some p =>
        have hread := part.ending_read hs p
        change Ending _ _ _ (part.read s p >>= fun s' => readParts data _ s')
        generalize part.read s p = step at hread
        cases hread with
        | taken hs' hfit hgood =>
          have hsound : IsSound data part := .taken hpart hfit hgood
          rw [meets_cons_iff fun h => hfit ((holdsUnfit_iff hpart).mp h),
            meets_cons_iff fun h => hgood ((isBad_iff hpart).mp h).2, and_iff_right hsound, and_iff_right hsound]
          exact ih hs'
        | refused hf hfit hbad =>
          refine .refused hf ?_ (meets_head (.refused hpart hfit hbad) rest)
          rw [meets_cons_iff fun h => hfit ((holdsUnfit_iff hpart).mp h)]
          exact fun h => ((isSound_iff hpart).mp h.1).2 hbad
        | stopped hf hunfit => exact .stopped hf (meets_head ⟨p, hpart, hunfit⟩ rest)

/-- What a reading ends in: settings, or a fault that says what is wrong. -/
def Ends (reading : Except SettingsFault Settings) : Prop :=
  (∃ s, reading = .ok s) ∨ ∃ f, reading = .error f ∧ f.IsRefusal

theorem Ending.isValid {unfit refused : Prop} {reading : Except SettingsFault Settings}
    (h : Ending IsValid unfit refused reading) (hs : reading = .ok s) : s.IsValid := by
  cases h with
  | taken ha _ _ => exact Except.ok.inj hs ▸ ha
  | refused | stopped => cases hs

theorem Ending.ends_iff {unfit refused : Prop} {reading : Except SettingsFault Settings}
    (h : Ending IsValid unfit refused reading) : Ends reading ↔ ¬ unfit := by
  cases h with
  | taken _ hfit _ => exact iff_of_true (.inl ⟨_, rfl⟩) hfit
  | refused hf hfit _ => exact iff_of_true (.inr ⟨_, rfl, hf⟩) hfit
  | stopped hf hunfit =>
    refine iff_of_false ?_ (not_not_intro hunfit)
    rintro (⟨s, ⟨⟩⟩ | ⟨f, ⟨⟩, hf'⟩)
    exact hf hf'

theorem isValid_default : IsValid {} where
  timeout := by decide
  client := ⟨"sqlite3", List.mem_cons_self, rfl⟩
  format := ⟨"markdown", List.mem_cons_self, rfl⟩

/-- The parts of a mapping whose variables are replaced, up to the first that is not sound. -/
theorem ending_ofValue {environment : Fields Text} (h : Substitution.value environment v = .ok data) :
    Ending IsValid (Meets data Part.all (HoldsUnfit data)) (Meets data Part.all (IsBad data)) (ofValue environment v) := by
  rw [ofValue, h, Part.parts_eq]
  exact ending_readParts isValid_default data Part.all

theorem ends_ofValue_iff (environment : Fields Text) (v : Value) : Ends (ofValue environment v) ↔
    ∀ data, Substitution.value environment v = .ok data → ¬ Meets data Part.all (HoldsUnfit data) := by
  cases h : Substitution.value environment v with
  | error name =>
    have hunset : ofValue environment v = .error (.unset name) := by rw [ofValue, h]
    exact iff_of_true (.inr ⟨_, hunset, trivial⟩) nofun
  | ok data =>
    rw [(ending_ofValue h).ends_iff]
    constructor
    · rintro hfit data' ⟨⟩
      exact hfit
    · intro hfit
      exact hfit data rfl

theorem isValid_of_ofValue {environment : Fields Text} (h : ofValue environment v = .ok s) : s.IsValid := by
  cases hdata : Substitution.value environment v with
  | error name =>
    rw [ofValue, hdata] at h
    cases h
  | ok data => exact (ending_ofValue hdata).isValid h

theorem ends_ofData_iff {environment : Fields Text} {d : Yaml.Data} {loops : Bool} (h : d.toValue = (v, loops)) :
    Ends (ofData environment d) ↔ ∀ data, Substitution.value environment v = .ok data →
      loops = false ∧ ¬ Meets data Part.all (HoldsUnfit data) := by
  cases loops with
  | false =>
    have hread : ofData environment d = ofValue environment v := by rw [ofData, h]
    rw [hread, ends_ofValue_iff]
    exact forall₂_congr fun _ _ => (and_iff_right rfl).symm
  | true =>
    cases hdata : Substitution.value environment v with
    | error name =>
      have hunset : ofData environment d = .error (.unset name) := by
        rw [ofData, h]
        dsimp only
        rw [hdata]
      exact iff_of_true (.inr ⟨_, hunset, trivial⟩) nofun
    | ok data =>
      have hdeep : ofData environment d = .error (.unread .tooDeep) := by
        rw [ofData, h]
        dsimp only
        rw [hdata]
      refine iff_of_false ?_ fun hall => by cases (hall data rfl).1
      rw [hdeep]
      rintro (⟨s, ⟨⟩⟩ | ⟨f, ⟨⟩, hf⟩)
      exact hf

theorem isValid_of_ofData {environment : Fields Text} {d : Yaml.Data} (h : ofData environment d = .ok s) : s.IsValid := by
  unfold ofData at h
  split at h
  · exact isValid_of_ofValue h
  · split at h <;> cases h

/-- Settings that are read from a mapping can be run with. The reading ends with settings, or with what is wrong with
them, exactly when it comes to no part with an unfit value: a variable that is not set, or a part that is refused, ends it
before. Data that holds itself is read to no other good end than such a variable. -/
theorem reading_ends_iff (environment : Fields Text) :
    (∀ es s, ofValue environment (.ofFields es) = .ok s → s.IsValid) ∧
    (∀ es, Ends (ofValue environment (.ofFields es)) ↔ ∀ data,
      Substitution.value environment (.ofFields es) = .ok data → ¬ Meets data Part.all (HoldsUnfit data)) ∧
    (∀ d s, ofData environment d = .ok s → s.IsValid) ∧
    ∀ d v loops, d.toValue = (v, loops) → (Ends (ofData environment d) ↔ ∀ data,
      Substitution.value environment v = .ok data → loops = false ∧ ¬ Meets data Part.all (HoldsUnfit data)) :=
  ⟨fun _ _ => isValid_of_ofValue, fun es => ends_ofValue_iff environment (.ofFields es), fun _ _ => isValid_of_ofData,
    fun _ _ _ => ends_ofData_iff⟩

/-- A time limit that is left open. -/
def openLimit : Fields Value := [("execution".toList, .ofFields [("timeout".toList, .null)])]

theorem not_ends_openLimit : ofValue [] (.ofFields openLimit) = .error (.integer .noNumber) ∧
    ¬ Ends (ofValue [] (.ofFields openLimit)) := by
  have hread : ofValue [] (.ofFields openLimit) = .error (.integer .noNumber) := rfl
  refine ⟨hread, ?_⟩
  rw [hread]
  rintro (⟨s, ⟨⟩⟩ | ⟨f, ⟨⟩, hf⟩)
  exact hf

end Settings
end Runbook
