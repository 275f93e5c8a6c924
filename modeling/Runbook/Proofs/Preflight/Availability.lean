import Mathlib.Data.List.Forall2
import Runbook.Preflight.Basic
import Runbook.Proofs.Host.Action
import Runbook.Proofs.Runner.Batch

/-!
The preflight check tells of every runner whether it would find a tool, with one exception: the shell that runners take
where neither the preferred one nor the plain one is there.
-/
namespace Runbook

open Runbook.Action (Does Spawned)

namespace Preflight

variable {α β : Type} {act : Action α} {f : α → Action β} {P : α → Prop} {Q : β → Prop} {tools : List Text}
  {h h' : Host} {timeout : Seconds} {s : Settings} {p : Preflight}

/-! Asking for versions -/

/-- An ending that says a version or that there is none. Any other stops the check. -/
def Answers (e : Ending) : Prop := ∃ v, versionOf e = .ok v

/-- The action asks for processes only. It gives a value of the property, or one of the processes has not answered. -/
def Asks (tools : List Text) (act : Action α) (P : α → Prop) : Prop :=
  ∀ h, h.tools = tools → ∃ cs result h', act h = (result, h') ∧ Spawned cs h h' ∧
    match result with
    | .ok a => P a
    | .error _ => ∃ e ∈ h.endings, ¬ Answers e

theorem asks_pure {a : α} (ha : P a) : Asks tools (pure a) P := fun h _ => ⟨[], .ok a, h, rfl, .refl h, ha⟩

theorem asks_host : Asks tools Action.host fun h => h.tools = tools := fun h ht => ⟨[], .ok h, h, rfl, .refl h, ht⟩

theorem asks_hasTool (tool : Text) : Asks tools (Action.hasTool tool) fun found => found = true ↔ tool ∈ tools :=
  fun h ht => ⟨[], .ok (tool ∈ h.tools : Bool), h, rfl, .refl h, by simp [ht]⟩

theorem Asks.bind (hact : Asks tools act P) (hf : ∀ a, P a → Asks tools (f a) Q) : Asks tools (act >>= f) Q := by
  intro h ht
  obtain ⟨cs, result, h₁, hrun, hspawned, hresult⟩ := hact h ht
  rw [Action.run_bind, hrun]
  cases result with
  | error stop => exact ⟨cs, .error stop, h₁, rfl, hspawned, hresult⟩
  | ok a =>
    obtain ⟨ds, last, h₂, hlast, hspawned', hq⟩ := hf a hresult h₁ (hspawned.tools.trans ht)
    refine ⟨cs ++ ds, last, h₂, hlast, hspawned.trans hspawned', ?_⟩
    cases last with
    | ok b => exact hq
    | error stop =>
      obtain ⟨e, he, hmute⟩ := hq
      rw [hspawned.endings] at he
      exact ⟨e, List.mem_of_mem_drop he, hmute⟩

theorem answers_usual : Answers .usual := ⟨_, rfl⟩

/-- Where no more endings are told, a process ends as usual. -/
theorem answers_headD {es : List Ending} (hmute : ¬ Answers (es.headD .usual)) : ∃ e ∈ es, ¬ Answers e := by
  cases es with
  | nil => exact (hmute answers_usual).elim
  | cons e es => exact ⟨e, List.mem_cons_self, hmute⟩

theorem asks_version (command : Text) (arguments : List Text) :
    Asks tools (version timeout command arguments) fun _ => True := by
  intro h _
  let call : Call := { command := command :: arguments, timeout := some timeout }
  have hstart : call.start h = (.ok (h.endings.headD .usual), (call.start h).2) := rfl
  have hspawned : Spawned [{ call with files := none }] h (call.start h).2 := ⟨rfl, List.drop_one.symm, rfl⟩
  rw [version, Action.run_bind, hstart]
  dsimp only
  cases hsaid : versionOf (h.endings.headD .usual) with
  | ok v => exact ⟨_, .ok v, _, rfl, hspawned, trivial⟩
  | error stop =>
    refine ⟨_, .error stop, _, rfl, hspawned, answers_headD ?_⟩
    rintro ⟨v, hv⟩
    rw [hsaid] at hv
    cases hv

/-! One check -/

/-- The check is one of the family, and tells whether this is so. -/
structure Says (target : Text) (there : Prop) (c : ToolCheck) : Prop where
  target : c.target = target
  isAvailable : c.isAvailable = true ↔ there

theorem asks_checkTool (target tool : Text) (arguments : List Text) (purpose hint : Text) :
    Asks tools (checkTool timeout target tool arguments purpose hint) (Says target (tool ∈ tools)) := by
  refine (asks_hasTool tool).bind fun found hfound => ?_
  split
  · rename_i hthere
    exact (asks_version tool arguments).bind fun v _ => asks_pure ⟨rfl, by simpa [hthere] using hfound⟩
  · rename_i hmissing
    exact asks_pure ⟨rfl, by simpa [hmissing] using hfound⟩

theorem asks_checkShell (preferred : Text) : Asks tools (checkShell timeout preferred)
    (Says "executable" (preferred ∈ tools ∨ "sh".toList ∈ tools)) := by
  refine asks_host.bind fun h ht => ?_
  split
  · rename_i shell hshell
    have hthere : shell ∈ tools := by simpa [ht] using List.find?_some hshell
    have hseen : preferred ∈ tools ∨ "sh".toList ∈ tools := by
      have hmem := Runner.mem_distinct.mp (List.mem_of_find?_eq_some hshell)
      rw [List.mem_pair] at hmem
      rcases hmem with rfl | rfl
      · exact .inl hthere
      · exact .inr hthere
    refine (asks_checkTool _ shell _ _ _).bind fun c hc => ?_
    split
    · exact asks_pure ⟨hc.target, iff_of_true (hc.isAvailable.mpr hthere) hseen⟩
    · exact asks_pure ⟨hc.target, iff_of_true (hc.isAvailable.mpr hthere) hseen⟩
  · rename_i hnone
    refine asks_pure ⟨rfl, iff_of_false Bool.false_ne_true fun hseen => ?_⟩
    rw [List.find?_eq_none] at hnone
    rcases hseen with hseen | hseen
    · exact hnone preferred (Runner.mem_distinct.mpr (by simp)) (by simpa [ht] using hseen)
    · exact hnone "sh" (Runner.mem_distinct.mpr (by simp)) (by simpa [ht] using hseen)

theorem asks_checkSpecs (specs : List ToolSpec) : Asks tools (checkSpecs timeout specs)
    (List.Forall₂ (fun spec => Says spec.target (spec.tool ∈ tools)) specs) := by
  induction specs with
  | nil => exact asks_pure .nil
  | cons spec specs ih =>
    exact (asks_checkTool _ _ _ _ _).bind fun c hc => ih.bind fun cs hcs => asks_pure (.cons hc hcs)

/-! All checks -/

theorem checks_add (p : Preflight) (c : ToolCheck) : (p.add c).checks = p.checks ++ [c] := by
  cases hthere : c.isAvailable <;> cases hneeded : c.isRequired <;> simp [add, hthere, hneeded]

theorem isOk_add (p : Preflight) (c : ToolCheck) : (p.add c).isOk = (p.isOk && (c.isAvailable || !c.isRequired)) := by
  cases hthere : c.isAvailable <;> cases hneeded : c.isRequired <;> simp [add, hthere, hneeded]

theorem warnings_add (p : Preflight) (c : ToolCheck) : (p.add c).warnings = p.warnings ++
    if c.isAvailable || c.isRequired then [] else [c.name ++ " not found: " ++ c.target ++ " will run in mock mode"] := by
  cases hthere : c.isAvailable <;> cases hneeded : c.isRequired <;> simp [add, hthere, hneeded]

theorem errors_add (p : Preflight) (c : ToolCheck) : (p.add c).errors = p.errors ++
    if c.isAvailable || !c.isRequired then [] else ["Required tool not found: " ++ c.name] := by
  cases hthere : c.isAvailable <;> cases hneeded : c.isRequired <;> simp [add, hthere, hneeded]

/-- What is said of a missing tool. -/
def lack (s : Settings) (c : ToolCheck) : Text :=
  if s.mockMissingTools.isTrue then c.name ++ " not found: " ++ c.target ++ " will run in mock mode"
  else "Required tool not found: " ++ c.name

def missing (p : Preflight) : List ToolCheck := p.checks.filter (!·.isAvailable)

/-- The reports of a preflight are on the missing tools and on no others: warnings where their documents run in name,
and errors where they do not. -/
structure Reports (s : Settings) (p : Preflight) : Prop where
  isOk : p.isOk = (s.mockMissingTools.isTrue || p.allAvailable)
  warnings : p.warnings = if s.mockMissingTools.isTrue then p.missing.map (lack s) else []
  errors : p.errors = if s.mockMissingTools.isTrue then [] else p.missing.map (lack s)

theorem Reports.add {c : ToolCheck} (hc : c.isRequired = !s.mockMissingTools.isTrue) (hp : Reports s p) :
    Reports s (p.add c) := by
  have hall : (p.add c).allAvailable = (p.allAvailable && c.isAvailable) := by simp [allAvailable, checks_add]
  have hmissing : (p.add c).missing = p.missing ++ if c.isAvailable then [] else [c] := by
    cases hthere : c.isAvailable <;> simp [missing, checks_add, hthere]
  constructor
  · rw [isOk_add, hp.isOk, hall, hc, Bool.not_not]
    cases s.mockMissingTools.isTrue <;> simp
  · rw [warnings_add, hp.warnings, hmissing, hc]
    cases hmock : s.mockMissingTools.isTrue <;> cases c.isAvailable <;> simp [lack, hmock]
  · rw [errors_add, hp.errors, hmissing, hc]
    cases hmock : s.mockMissingTools.isTrue <;> cases c.isAvailable <;> simp [lack, hmock]

theorem Reports.foldl (cs : List ToolCheck) (hcs : ∀ c ∈ cs, c.isRequired = !s.mockMissingTools.isTrue)
    (hp : Reports s p) : (cs.foldl Preflight.add p).checks = p.checks ++ cs ∧ Reports s (cs.foldl Preflight.add p) := by
  induction cs generalizing p with
  | nil => exact ⟨(List.append_nil _).symm, hp⟩
  | cons c cs ih =>
    rw [List.forall_mem_cons] at hcs
    obtain ⟨hchecks, hreports⟩ := ih hcs.2 (hp.add hcs.1)
    rw [checks_add, List.append_assoc] at hchecks
    exact ⟨hchecks, hreports⟩

/-- The languages whose runners are checked, each under the name that its check has. -/
def families : List (Language × Text) :=
  [(.dockerfile, "docker"), (.terraform, "terraform"), (.kubernetes, "kubernetes"), (.git, "git"),
    (.executable, "executable"), (.sql, "sql")]

/-- Where the shell that the check does not know is there, so is one that it knows. -/
def KnowsShell (s : Settings) (h : Host) : Prop :=
  "bash".toList ∈ h.tools → s.preferredShell.toText ∈ h.tools ∨ "sh".toList ∈ h.tools

/-- The check tells whether the runner of the language would find a tool. -/
def Tells (s : Settings) (h : Host) (l : Language) (c : ToolCheck) : Prop :=
  c.isAvailable = (Runner.ofLanguage s l).isAvailable h

/-- A runner of one tool. -/
theorem tells_of_tools {l : Language} {tool : Text} {c : ToolCheck} (htools : (Runner.ofLanguage s l).tools = [tool])
    (hc : c.isAvailable = true ↔ tool ∈ h.tools) : Tells s h l c := by
  rw [Tells, Bool.eq_iff_iff, hc, Runner.isAvailable_eq_true_iff, htools]
  simp

theorem tells_executable_iff {c : ToolCheck}
    (hc : c.isAvailable = true ↔ s.preferredShell.toText ∈ h.tools ∨ "sh".toList ∈ h.tools) :
    Tells s h .executable c ↔ KnowsShell s h := by
  have htools : (Runner.ofLanguage s .executable).tools = Runner.distinct [s.preferredShell.toText, "bash", "sh"] := rfl
  have hsome : Runner.distinct [s.preferredShell.toText, "bash", "sh"] ≠ [] :=
    List.ne_nil_of_mem (Runner.mem_distinct.mpr List.mem_cons_self)
  have hrunner : (Runner.ofLanguage s .executable).isAvailable h = true ↔
      s.preferredShell.toText ∈ h.tools ∨ "bash".toList ∈ h.tools ∨ "sh".toList ∈ h.tools := by
    rw [Runner.isAvailable_eq_true_iff, htools]
    simp only [hsome, false_or, Runner.mem_distinct, List.mem_cons, List.not_mem_nil, or_false, exists_eq_or_imp,
      exists_eq_left]
  rw [Tells, Bool.eq_iff_iff, hc, hrunner, KnowsShell]
  constructor
  · exact fun htells hbash => htells.mpr (.inr (.inl hbash))
  · intro hknown
    constructor
    · rintro (hpreferred | hplain)
      · exact .inl hpreferred
      · exact .inr (.inr hplain)
    · rintro (hpreferred | hbash | hplain)
      · exact .inl hpreferred
      · exact hknown hbash
      · exact .inr hplain

/-- A check is of its family, and agrees with the runner unless that may take a shell that the check does not know. -/
structure Agrees (s : Settings) (h : Host) (f : Language × Text) (c : ToolCheck) : Prop where
  target : c.target = f.2
  tells_iff : Tells s h f.1 c ↔ (f.1 = .executable → KnowsShell s h)

theorem agrees_of_tools {f : Language × Text} {tool : Text} {c : ToolCheck}
    (htools : (Runner.ofLanguage s f.1).tools = [tool]) (hf : f.1 ≠ .executable)
    (hc : Says f.2 (tool ∈ h.tools) c) : Agrees s h f c :=
  ⟨hc.target, iff_of_true (tells_of_tools htools hc.isAvailable) fun he => (hf he).elim⟩

theorem agrees_checks {cs : List ToolCheck} {shell client : ToolCheck}
    (hcs : List.Forall₂ (fun spec => Says spec.target (spec.tool ∈ h.tools)) toolSpecs cs)
    (hshell : Says "executable" (s.preferredShell.toText ∈ h.tools ∨ "sh".toList ∈ h.tools) shell)
    (hclient : Says "sql" (s.sqlClient.toText ∈ h.tools) client) :
    List.Forall₂ (Agrees s h) families (cs ++ [shell, client]) := by
  rw [toolSpecs] at hcs
  obtain _ | ⟨hdocker, _ | ⟨hterraform, _ | ⟨hkubernetes, _ | ⟨hgit, ⟨⟩⟩⟩⟩⟩ := hcs
  refine .cons (agrees_of_tools rfl nofun hdocker) <| .cons (agrees_of_tools rfl nofun hterraform) <|
    .cons (agrees_of_tools rfl nofun hkubernetes) <| .cons (agrees_of_tools rfl nofun hgit) <|
    .cons ⟨hshell.target, ?_⟩ <| .cons (agrees_of_tools rfl nofun hclient) .nil
  rw [tells_executable_iff hshell.isAvailable]
  exact ⟨fun hknown _ => hknown, fun hknown => hknown rfl⟩

theorem asks_checkAll (timeout : Seconds) (s : Settings) (h : Host) : Asks h.tools (checkAll timeout s) fun p =>
    List.Forall₂ (Agrees s h) families p.checks ∧ Reports s p := by
  refine (asks_checkSpecs toolSpecs).bind fun cs hcs => (asks_checkShell _).bind fun shell hshell =>
    (asks_checkTool _ _ _ _ _).bind fun client hclient => ?_
  have hempty : Reports s {} := by
    constructor <;> cases s.mockMissingTools.isTrue <;> rfl
  obtain ⟨hchecks, hreports⟩ := hempty.foldl
    ((cs ++ [shell, client]).map fun c => { c with isRequired := !s.mockMissingTools.isTrue })
    (List.forall_mem_map.mpr fun _ _ => rfl)
  refine asks_pure ⟨?_, hreports⟩
  rw [hchecks]
  exact List.forall₂_map_right_iff.mpr ((agrees_checks hcs hshell hclient).imp fun _ _ hc => ⟨hc.target, hc.tells_iff⟩)

/-- The check of all tools comes to an end where every process says something of its version. Whenever it does, it agrees
with the runners of all families but one, and with the runner of scripts exactly where the shell that is unknown to it
makes no difference; and it reports the tools that it misses. -/
theorem checkAll_agrees (timeout : Seconds) (s : Settings) (h : Host) :
    ((∀ e ∈ h.endings, Answers e) → ∃ p h', checkAll timeout s h = (.ok p, h')) ∧
      ∀ p h', checkAll timeout s h = (.ok p, h') →
        List.Forall₂ (Agrees s h) families p.checks ∧ Reports s p ∧
        (List.Forall₂ (fun f c => Tells s h f.1 c) families p.checks ↔ KnowsShell s h) := by
  -- the run is a function of the host, so the one result that `asks_checkAll` tells of is the only one
  obtain ⟨cs, result, h₁, hrun, -, hresult⟩ := asks_checkAll timeout s h h rfl
  cases result with
  | error stop =>
    constructor
    · intro hanswers
      obtain ⟨e, he, hmute⟩ := hresult
      exact (hmute (hanswers e he)).elim
    · intro p h' hp
      rw [hrun] at hp
      cases hp
  | ok p =>
    obtain ⟨hagrees, hreports⟩ := hresult
    refine ⟨fun _ => ⟨p, h₁, hrun⟩, fun p' h' hp => ?_⟩
    rw [hrun] at hp
    cases hp
    refine ⟨hagrees, hreports, fun htells => ?_, fun hknown => hagrees.imp fun f c hc => hc.tells_iff.mpr fun _ => hknown⟩
    have hknown : List.Forall₂ (fun f _ => (f.1 = .executable → KnowsShell s h) ∧ True) families p.checks :=
      .mp (fun f c hc htell => ⟨hc.tells_iff.mp htell, trivial⟩) hagrees htells
    have hscripts : (Language.executable, "executable".toList) ∈ families := by simp [families]
    exact ((List.forall₂_and_left _ _).mp hknown).1 _ hscripts rfl

/-- A shell stands in for the preferred one, and one process says nothing of its version. -/
theorem checkAll_agrees_fallbackShell :
    let s : Settings := { preferredShell := .text "zsh" }
    let endings := [.exit 0 (some "Docker 27") [], .expiry none]
    let h : Host := { tools := ["docker", "bash", "sh"], endings, clock := default }
    ∃ p h', checkAll (.whole 10) s h = (.ok p, h') ∧ List.Forall₂ (fun f c => Tells s h f.1 c) families p.checks := by
  intro s endings h
  have hanswers : ∀ e ∈ h.endings, Answers e := by
    intro e he
    simp only [h, endings, List.mem_cons, List.not_mem_nil, or_false] at he
    rcases he with rfl | rfl <;> exact ⟨_, rfl⟩
  obtain ⟨p, h', hrun⟩ := (checkAll_agrees (.whole 10) s h).1 hanswers
  refine ⟨p, h', hrun, ((checkAll_agrees (.whole 10) s h).2 p h' hrun).2.2.mpr fun _ => .inr ?_⟩
  simp [h]

/-- With the preferred shell missing and only the other one there, the check says that scripts run in name; they run. -/
theorem checkAll_misses_bash :
    let s : Settings := { preferredShell := .text "zsh" }
    let h : Host := { tools := ["bash"], clock := default }
    ∃ p h' c, checkAll (.whole 10) s h = (.ok p, h') ∧ p.checks[4]? = some c ∧ c.target = "executable".toList ∧
      c.isAvailable = false ∧ "zsh not found: executable will run in mock mode".toList ∈ p.warnings ∧
      (Runner.ofLanguage s .executable).isAvailable h = true := by
  intro s h
  exact ⟨_, _, _, rfl, rfl, rfl, rfl, by decide +kernel, by decide +kernel⟩

end Preflight
end Runbook
