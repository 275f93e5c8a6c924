import Runbook.Pipeline.Basic
import Runbook.Proofs.Runner.Execution

/-!
Requests that are processed one after another. Each ends with an outcome, whatever stops it on its way, and once it has ended
the sink is called with that outcome, once. What the sink answers changes nothing of it.
-/
namespace Runbook.Pipeline

variable {σ : Type} {s : Settings} {store : Storing σ} {q : Request} {sink sink' : σ} {h h₁ h₂ : Host} {o : Outcome}
  {stop : Stop} {t : Text} {b : Bool}

/-! One request -/

/-- Something stops the request before there is an outcome: its text cannot be fetched, or the run of the text stops. -/
inductive StopsBy (q : Request) (h : Host) : Stop → Prop
  | fetch {stop : Stop} {h₁ : Host} (hfetch : q.fetch h = (.error stop, h₁)) : StopsBy q h stop
  | run {stop : Stop} {t : Text} {h₁ h₂ : Host} (hfetch : q.fetch h = (.ok (some t), h₁))
    (hrun : q.run t h₁ = (.error stop, h₂)) : StopsBy q h stop

/-- Where nothing stops it, the run of a text gives what the execution of its document gave. -/
def Request.RunsWith (q : Request) (s : Settings) : Prop :=
  ∀ t h o h', q.run t h = (.ok o, h') → ∃ d h₀ h₁, Document.ofText t = .ok d ∧ execute s d h₀ = (.ok o, h₁)

theorem runsWith_ofProvider (s : Settings) (provider : Provider) (id : Text) :
    (Request.ofProvider s provider id).RunsWith s := by
  intro t h o h' hrun
  obtain ⟨d, h₁, hparse, hexecute⟩ := Action.bind_eq_ok_iff.mp hrun
  obtain ⟨-, h₀, -, hread⟩ := Action.bind_eq_ok_iff.mp hparse
  cases hd : Document.ofText t with
  | error f =>
    rw [hd] at hread
    cases hread
  | ok d' =>
    rw [hd] at hread
    cases hread
    exact ⟨d, h₁, h', rfl, hexecute⟩

theorem Request.RunsWith.error_ne (hq : q.RunsWith s) (hrun : q.run t h = (.ok o, h₁)) : o.error ≠ some .notFound := by
  obtain ⟨d, h₀, h', -, hexecute⟩ := hq t h o h₁ hrun
  obtain ⟨-, h₂, -, ho⟩ := Action.bind_eq_ok_iff.mp hexecute
  exact Runner.error_ne_notFound_of_execute ho

/-- What the outcome of a request tells: that there is no document, what stopped the request, or how the run went. -/
structure Tells (q : Request) (h : Host) (o : Outcome) : Prop where
  notFound : o.error = some .notFound ↔ ∃ h₁, q.fetch h = (.ok none, h₁)
  stopped : ∀ stop, StopsBy q h stop → o.target = target ∧ o.isOk = false ∧ o.error = some .unhandled ∧
    Fields.get? "output" o.details = some (.text stop.message)
  run : ∀ t h₁ o' h₂, q.fetch h = (.ok (some t), h₁) → q.run t h₁ = (.ok o', h₂) → o = o'

theorem outcomeOf_of_error (hfetch : q.fetch h = (.error stop, h₁)) : outcomeOf q h = (.error stop, h₁) := by
  rw [outcomeOf, Action.run_bind, hfetch]

theorem exists_outcomeOf_of_none (hfetch : q.fetch h = (.ok none, h₁)) :
    ∃ o h₂, outcomeOf q h = (.ok o, h₂) ∧ o.error = some .notFound := by
  rw [outcomeOf, Action.run_bind, hfetch]
  exact ⟨_, _, rfl, rfl⟩

theorem outcomeOf_of_some (hfetch : q.fetch h = (.ok (some t), h₁)) : outcomeOf q h = q.run t h₁ := by
  rw [outcomeOf, Action.run_bind, hfetch]

theorem StopsBy.outcomeOf (hstops : StopsBy q h stop) : ∃ h₁, outcomeOf q h = (.error stop, h₁) := by
  cases hstops with
  | fetch hfetch => exact ⟨_, outcomeOf_of_error hfetch⟩
  | run hfetch hrun => exact ⟨_, (outcomeOf_of_some hfetch).trans hrun⟩

theorem tells_of_error (houtcome : outcomeOf q h = (.error stop, h₁)) (now : Moment) :
    Tells q h (Outcome.failure target .unhandled stop.message (-1) [] now) := by
  constructor
  · refine ⟨fun herror => by simp [Outcome.failure] at herror, fun ⟨h₂, hnone⟩ => ?_⟩
    obtain ⟨o, h₃, ho, -⟩ := exists_outcomeOf_of_none hnone
    rw [houtcome] at ho
    cases ho
  · intro stop' hstops
    obtain ⟨h₂, hstop⟩ := hstops.outcomeOf
    rw [houtcome] at hstop
    cases hstop
    exact ⟨rfl, rfl, rfl, rfl⟩
  · intro t h₂ o' h₃ hfetch hrun
    rw [outcomeOf_of_some hfetch, hrun] at houtcome
    cases houtcome

theorem tells_of_ok (hq : q.RunsWith s) (houtcome : outcomeOf q h = (.ok o, h₁)) : Tells q h o := by
  constructor
  · rcases hfetch : q.fetch h with ⟨stop | _ | t, h₂⟩
    · rw [outcomeOf_of_error hfetch] at houtcome
      cases houtcome
    · obtain ⟨o', h₃, ho, herror⟩ := exists_outcomeOf_of_none hfetch
      rw [houtcome] at ho
      cases ho
      exact ⟨fun _ => ⟨h₂, rfl⟩, fun _ => herror⟩
    · rw [outcomeOf_of_some hfetch] at houtcome
      refine ⟨fun herror => (hq.error_ne houtcome herror).elim, ?_⟩
      rintro ⟨_, ⟨⟩⟩
  · intro stop hstops
    obtain ⟨h₂, hstop⟩ := hstops.outcomeOf
    rw [houtcome] at hstop
    cases hstop
  · intro t h₂ o' h₃ hfetch hrun
    rw [outcomeOf_of_some hfetch, hrun] at houtcome
    cases houtcome
    rfl

/-- Every request ends with an outcome that tells of it. -/
theorem exists_attempt (hq : q.RunsWith s) (h : Host) : ∃ o h₁, attempt q h = (.ok o, h₁) ∧ Tells q h o := by
  rw [attempt, Action.run_tryCatch]
  rcases houtcome : outcomeOf q h with ⟨stop | o, h₁⟩
  · exact ⟨_, _, rfl, tells_of_error houtcome _⟩
  · exact ⟨o, h₁, rfl, tells_of_ok hq houtcome⟩

/-! Sinks -/

/-- A sink that always says whether it has stored an outcome. -/
def Answers (store : Storing σ) : Prop :=
  ∀ id o sink h, ∃ b sink' h', store id o sink h = (.ok (.ok b, sink'), h')

/-- The host after an answer of the sink. -/
def told (q : Request) (b : Bool) (h : Host) : Host :=
  if b then h
  else { h with journal := h.journal ++ [.of .warning "pipeline" ("Result for " ++ q.id ++ " was not stored")] }

/-- The outcome is given back as it was handed to the sink, whatever the sink has answered. -/
theorem run_deliver (hattempt : attempt q h = (.ok o, h₁)) (hstore : store q.id o sink h₁ = (.ok (.ok b, sink'), h₂)) :
    deliver store q sink h = (.ok (o, .ok b, sink'), told q b h₂) := by
  rw [deliver, Action.run_bind, hattempt]
  dsimp only
  rw [Action.run_bind, hstore]
  cases b <;> rfl

/-- So it is with the sinks of the library. -/
theorem run_process {provider : Provider} {sink sink' : Sink} {id : Text}
    (hattempt : attempt (.ofProvider s provider id) h = (.ok o, h₁))
    (hstore : sink.store id o h₁ = (.ok (.ok b, sink'), h₂)) : process s provider (some sink) id h =
      (.ok ⟨o, .ok b, some sink'⟩, told (.ofProvider s provider id) b h₂) := by
  have hdeliver : deliver (fun id o sink => Sink.store id o sink) (.ofProvider s provider id) sink h =
      (.ok (o, .ok b, sink'), told (.ofProvider s provider id) b h₂) := run_deliver hattempt hstore
  exact Action.bind_eq_ok_iff.mpr ⟨_, _, hdeliver, rfl⟩

/-- One call of a sink: what it was given, and the host that it found. -/
structure Receipt where
  id : Text
  outcome : Outcome
  host : Host

/-- A sink that keeps a receipt of every call beside. -/
def recording (store : Storing σ) : Storing (List Receipt × σ) := fun id o (receipts, sink) => do
  let h ← Action.host
  let (stored, sink) ← store id o sink
  return (stored, receipts ++ [⟨id, o, h⟩], sink)

theorem run_recording {id : Text} (hstore : store id o sink h = (.ok (.ok b, sink'), h₁)) (receipts : List Receipt) :
    recording store id o (receipts, sink) h = (.ok (.ok b, receipts ++ [⟨id, o, h⟩], sink'), h₁) :=
  Action.bind_eq_ok_iff.mpr ⟨h, h, rfl, Action.bind_eq_ok_iff.mpr ⟨_, h₁, hstore, rfl⟩⟩

/-! Sessions -/

/-- All requests one after the other, with one sink. -/
def deliverAll (store : Storing σ) : List Request → σ → Action (List Outcome × σ)
  | [], sink => return ([], sink)
  | q :: qs, sink => do
    let (o, _, sink) ← deliver store q sink
    let (os, sink) ← deliverAll store qs sink
    return (o :: os, sink)

/-- In a session each request is attempted, and only then is the sink called for it. -/
inductive Session (store : Storing σ) : List Request → σ → Host → List Receipt → σ → Host → Prop
  | done (sink : σ) (h : Host) : Session store [] sink h [] sink h
  | call {q : Request} {qs : List Request} {sink sink₁ sink' : σ} {h h₁ h₂ h' : Host} {o : Outcome} {b : Bool}
    {receipts : List Receipt} (hattempt : attempt q h = (.ok o, h₁)) (htells : Tells q h o)
    (hstore : store q.id o sink h₁ = (.ok (.ok b, sink₁), h₂))
    (hrest : Session store qs sink₁ (told q b h₂) receipts sink' h') :
    Session store (q :: qs) sink h (⟨q.id, o, h₁⟩ :: receipts) sink' h'

theorem Session.ids {qs : List Request} {receipts : List Receipt} (hs : Session store qs sink h receipts sink' h₁) :
    receipts.map (·.id) = qs.map (·.id) := by
  induction hs with
  | done sink h => rfl
  | call _ _ _ _ ih => exact congrArg (_ :: ·) ih

theorem exists_session (hstore : Answers store) {qs : List Request} (hqs : ∀ q ∈ qs, q.RunsWith s) (before : List Receipt)
    (sink : σ) (h : Host) : ∃ receipts sink' h',
      deliverAll (recording store) qs (before, sink) h =
        (.ok (receipts.map (·.outcome), before ++ receipts, sink'), h') ∧
      Session store qs sink h receipts sink' h' := by
  induction qs generalizing before sink h with
  | nil => exact ⟨[], sink, h, by rw [List.append_nil]; rfl, .done sink h⟩
  | cons q qs ih =>
    rw [List.forall_mem_cons] at hqs
    obtain ⟨o, h₁, hattempt, htells⟩ := exists_attempt hqs.1 h
    obtain ⟨b, sink₁, h₂, hanswer⟩ := hstore q.id o sink h₁
    obtain ⟨receipts, sink', h', hrest, hsession⟩ := ih hqs.2 (before ++ [⟨q.id, o, h₁⟩]) sink₁ (told q b h₂)
    refine ⟨⟨q.id, o, h₁⟩ :: receipts, sink', h', ?_, .call hattempt htells hanswer hsession⟩
    rw [List.append_assoc] at hrest
    have hfirst := run_deliver hattempt (run_recording hanswer before)
    exact Action.bind_eq_ok_iff.mpr ⟨_, _, hfirst, Action.bind_eq_ok_iff.mpr ⟨_, _, hrest, rfl⟩⟩

/-- Whatever the documents are and whatever stops a request, every request of a session ends with an outcome and the sink
is called once for it, with its id and that outcome, after it has ended. The outcome tells that there is no document exactly
where there was none, and what has stopped the request. -/
theorem deliverAll_stores_once (s : Settings) (hstore : Answers store) {qs : List Request}
    (hqs : ∀ q ∈ qs, q.RunsWith s) (sink : σ) (h : Host) : ∃ receipts sink' h',
      deliverAll (recording store) qs ([], sink) h = (.ok (receipts.map (·.outcome), receipts, sink'), h') ∧
      receipts.map (·.id) = qs.map (·.id) ∧ Session store qs sink h receipts sink' h' := by
  obtain ⟨receipts, sink', h', hrun, hsession⟩ := exists_session hstore hqs [] sink h
  exact ⟨receipts, sink', h', hrun, hsession.ids, hsession⟩

/-- A document that is there, one that is not, and a provider that fails, with a sink that refuses every other outcome. -/
theorem deliverAll_stores_once_threeDocuments :
    let h : Host := { clock := default }
    let documents := Provider.memory [("a", "```dockerfile\nFROM x\n```\n")]
    let qs := [Request.ofProvider {} documents "a", Request.ofProvider {} documents "b", Request.ofProvider {} .failing "c"]
    let store : Storing Nat := fun _ _ n => return (.ok (n % 2 = 0), n + 1)
    ∃ receipts sink' h', deliverAll (recording store) qs ([], 0) h =
        (.ok (receipts.map (·.outcome), receipts, sink'), h') ∧
      receipts.map (·.id) = ["a", "b", "c"] ∧ Session store qs 0 h receipts sink' h' := by
  intro h documents qs store
  have hstore : Answers store := fun _ _ n h => ⟨decide (n % 2 = 0), n + 1, h, rfl⟩
  have hqs : ∀ q ∈ qs, q.RunsWith {} := by
    simp only [qs, List.forall_mem_cons]
    exact ⟨runsWith_ofProvider _ _ _, runsWith_ofProvider _ _ _, runsWith_ofProvider _ _ _, nofun⟩
  exact deliverAll_stores_once {} hstore hqs 0 h

end Runbook.Pipeline
