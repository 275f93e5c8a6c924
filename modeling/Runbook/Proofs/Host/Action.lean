import Runbook.Host.Workspace
import Runbook.Host.Process

/-!
Actions by what they give and by what they ask of the host: rules for two actions in a row, for the one thing that a host
cannot take back, the processes that were asked for, and for actions that change nothing but the log.
-/
namespace Runbook

variable {α β : Type} {act : Action α} {f : α → Action β} {P : α → Prop} {Q : β → Prop} {h h' h₁ h₂ : Host}
  {a : α} {b : β} {cs ds : List Call}

namespace Action

theorem run_bind (act : Action α) (f : α → Action β) (h : Host) : (act >>= f) h =
    match act h with
    | (.ok a, h₁) => f a h₁
    | (.error e, h₁) => (.error e, h₁) := by
  have hb : (act >>= f) h =
      (act h).1.casesOn (fun e => (.error e, (act h).2)) (fun a => f a (act h).2) := by
    rcases hact : act h with ⟨_ | _, _⟩
    · simp [bind, ExceptT.bind, ExceptT.mk, StateT.bind, hact, ExceptT.bindCont]
      rfl
    · simp [bind, ExceptT.bind, ExceptT.mk, StateT.bind, hact, ExceptT.bindCont]
  rw [hb]
  rcases act h with ⟨_ | _, _⟩ <;> rfl

theorem run_tryCatch (act : Action α) (f : Stop → Action α) (h : Host) : tryCatch act f h =
    match act h with
    | (.ok a, h₁) => (.ok a, h₁)
    | (.error e, h₁) => f e h₁ := by
  rcases hact : act h with ⟨_ | _, _⟩
  · simp [tryCatch, tryCatchThe, MonadExceptOf.tryCatch, ExceptT.tryCatch, ExceptT.mk, bind, StateT.bind, hact]
  · simp [tryCatch, tryCatchThe, MonadExceptOf.tryCatch, ExceptT.tryCatch, ExceptT.mk, bind, StateT.bind, hact]
    rfl

/-- Two actions in a row end where both do. -/
theorem bind_eq_ok_iff : (act >>= f) h = (.ok b, h') ↔
    ∃ a h₁, act h = (.ok a, h₁) ∧ f a h₁ = (.ok b, h') := by
  rw [run_bind]
  rcases act h with ⟨e | a, h₁⟩
  · constructor
    · intro he
      cases he
    · rintro ⟨_, _, he, -⟩
      cases he
  · constructor
    · intro hf
      exact ⟨a, h₁, rfl, hf⟩
    · rintro ⟨_, _, he, hf⟩
      cases he
      exact hf

theorem run_changeFiles (f : FileTree → Place → Except FileFault FileTree) (h : Host) : changeFiles f h =
    match f h.files h.cwd with
    | .ok files => (.ok (), { h with files })
    | .error fault => (.error (.file fault), h) := by
  have hget : (get : Action Host) h = (.ok h, h) := rfl
  rw [changeFiles, run_bind, hget]
  dsimp only
  cases f h.files h.cwd <;> rfl

theorem changeFiles_eq_ok_iff {f : FileTree → Place → Except FileFault FileTree} :
    changeFiles f h = (.ok (), h') ↔ ∃ files, f h.files h.cwd = .ok files ∧ h' = { h with files } := by
  rw [run_changeFiles]
  cases f h.files h.cwd with
  | ok files =>
    constructor
    · rintro ⟨⟩
      exact ⟨files, rfl, rfl⟩
    · rintro ⟨_, ⟨⟩, rfl⟩
      rfl
  | error fault =>
    constructor
    · rintro ⟨⟩
    · rintro ⟨_, ⟨⟩, -⟩

theorem run_makeDirectories (p : Path) (h : Host) : makeDirectories p h =
    match h.files.ensureDirectories h.cwd p with
    | .ok files => (.ok (), { h with files })
    | .error fault => (.error (.file fault), { h with files := h.files.leftDirectories h.cwd p }) := by
  have hget : (get : Action Host) h = (.ok h, h) := rfl
  rw [makeDirectories, run_bind, hget]
  dsimp only
  cases h.files.ensureDirectories h.cwd p <;> rfl

theorem makeDirectories_eq_ok_iff {p : Path} : makeDirectories p h = (.ok (), h') ↔
    ∃ files, h.files.ensureDirectories h.cwd p = .ok files ∧ h' = { h with files } := by
  rw [run_makeDirectories]
  cases h.files.ensureDirectories h.cwd p with
  | ok files =>
    constructor
    · rintro ⟨⟩
      exact ⟨files, rfl, rfl⟩
    · rintro ⟨_, ⟨⟩, rfl⟩
      rfl
  | error fault =>
    constructor
    · rintro ⟨⟩
    · rintro ⟨_, ⟨⟩, -⟩

/-! What an action gives on every host -/

/-- A value that the action gives has the property, whatever the host. -/
def Gives (act : Action α) (P : α → Prop) : Prop := ∀ h a h', act h = (.ok a, h') → P a

theorem gives_pure (ha : P a) : Gives (pure a) P := by
  intro h b h' hb
  cases hb
  exact ha

theorem gives_true (act : Action α) : Gives act fun _ => True := fun _ _ _ _ => trivial

theorem Gives.bind (hact : Gives act P) (hf : ∀ a, P a → Gives (f a) Q) : Gives (act >>= f) Q := by
  intro h b h' hb
  obtain ⟨a, h₁, ha, hb⟩ := bind_eq_ok_iff.mp hb
  exact hf a (hact h a h₁ ha) h₁ b h' hb

/-- What comes before an action does not matter where the action gives the property in any case. -/
theorem gives_bind (act : Action α) (hf : ∀ a, Gives (f a) Q) : Gives (act >>= f) Q :=
  (gives_true act).bind fun a _ => hf a

/-! The processes that an action asks for -/

/-- The second host comes from the first by these processes, each of which took the next ending. -/
structure Spawned (cs : List Call) (h h' : Host) : Prop where
  tools : h'.tools = h.tools
  endings : h'.endings = h.endings.drop cs.length
  calls : h'.calls = h.calls ++ cs

theorem Spawned.refl (h : Host) : Spawned [] h h := ⟨rfl, rfl, (List.append_nil _).symm⟩

theorem Spawned.trans (hc : Spawned cs h h₁) (hd : Spawned ds h₁ h₂) : Spawned (cs ++ ds) h h₂ := by
  refine ⟨hd.tools.trans hc.tools, ?_, ?_⟩
  · rw [hd.endings, hc.endings, List.drop_drop, List.length_append]
  · rw [hd.calls, hc.calls, List.append_assoc]

/-- The action ends with the value, and asks for the processes on its way. -/
structure Does (act : Action α) (h : Host) (cs : List Call) (a : α) (h' : Host) : Prop where
  run : act h = (.ok a, h')
  spawned : Spawned cs h h'

theorem does_pure (a : α) (h : Host) : Does (pure a) h [] a h := ⟨rfl, .refl h⟩

theorem does_host (h : Host) : Does host h [] h h := ⟨rfl, .refl h⟩

theorem does_now (h : Host) : Does now h [] h.clock h := ⟨rfl, .refl h⟩

theorem does_log (level : LogLevel) (logger : String) (message : Text) (h : Host) :
    ∃ h', Does (log level logger message) h [] () h' :=
  ⟨_, rfl, ⟨rfl, rfl, (List.append_nil _).symm⟩⟩

theorem does_changeFiles {f : FileTree → Place → Except FileFault FileTree} {files : FileTree}
    (hf : f h.files h.cwd = .ok files) : Does (changeFiles f) h [] () { h with files } := by
  refine ⟨?_, ⟨rfl, rfl, (List.append_nil _).symm⟩⟩
  rw [run_changeFiles, hf]

theorem Does.bind (hact : Does act h cs a h₁) (hf : Does (f a) h₁ ds b h₂) : Does (act >>= f) h (cs ++ ds) b h₂ :=
  ⟨bind_eq_ok_iff.mpr ⟨a, h₁, hact.run, hf.run⟩, hact.spawned.trans hf.spawned⟩

theorem Does.andPure (hact : Does act h cs a h') (g : α → β) : Does (act >>= fun a => pure (g a)) h cs (g a) h' := by
  have hboth := hact.bind (f := fun a => pure (g a)) (does_pure (g a) h')
  rwa [List.append_nil] at hboth

/-- An action that asks for no process adds nothing to what the next one asks for. -/
theorem Does.seq (hact : Does act h [] a h₁) (hf : Does (f a) h₁ cs b h₂) : Does (act >>= f) h cs b h₂ :=
  hact.bind hf

/-- An action is over only when what comes last is. -/
theorem Does.andFinally {last : Action Unit} (hact : Does act h cs a h₁) (hlast : Does last h₁ [] () h₂) :
    Does (act.andFinally last) h cs a h₂ := by
  have hspawned := hact.spawned.trans hlast.spawned
  rw [List.append_nil] at hspawned
  have hresult : (act h).1 = .ok a := congrArg Prod.fst hact.run
  have hhost : (last (act h).2).2 = h₂ := by rw [hact.run, hlast.run]
  exact ⟨Prod.ext hresult hhost, hspawned⟩

/-- The action asks for no process and ends with a value, unless a fault of the files stops it. -/
def Quiet (act : Action α) (h : Host) : Prop :=
  (∃ a h', Does act h [] a h') ∨ ∃ fault h', act h = (.error (.file fault), h') ∧ Spawned [] h h'

theorem quiet_changeFiles (f : FileTree → Place → Except FileFault FileTree) (h : Host) :
    Quiet (changeFiles f) h := by
  cases hf : f h.files h.cwd with
  | ok files => exact .inl ⟨(), _, does_changeFiles hf⟩
  | error fault =>
    refine .inr ⟨fault, h, ?_, .refl h⟩
    rw [run_changeFiles, hf]

theorem quiet_makeDirectories (p : Path) (h : Host) : Quiet (makeDirectories p) h := by
  rw [Quiet]
  cases hf : h.files.ensureDirectories h.cwd p with
  | ok files => exact .inl ⟨(), _, makeDirectories_eq_ok_iff.mpr ⟨files, hf, rfl⟩, rfl, rfl, (List.append_nil _).symm⟩
  | error fault =>
    refine .inr ⟨fault, { h with files := h.files.leftDirectories h.cwd p }, ?_, rfl, rfl, (List.append_nil _).symm⟩
    rw [run_makeDirectories, hf]

theorem Quiet.bind (hact : Quiet act h) (hf : ∀ a h₁, Quiet (f a) h₁) : Quiet (act >>= f) h := by
  rcases hact with ⟨a, h₁, hdoes⟩ | ⟨fault, h₁, hstop, hspawned⟩
  · rcases hf a h₁ with ⟨b, h₂, hlast⟩ | ⟨fault, h₂, hstop, hspawned⟩
    · exact .inl ⟨b, h₂, hdoes.seq hlast⟩
    · refine .inr ⟨fault, h₂, ?_, hdoes.spawned.trans hspawned⟩
      rw [run_bind, hdoes.run]
      exact hstop
  · refine .inr ⟨fault, h₁, ?_, hspawned⟩
    rw [run_bind, hstop]

/-- A fault of the files is caught. -/
theorem Quiet.tryCatch {handler : Stop → Action α} (hact : Quiet act h)
    (hcatch : ∀ fault h₁, ∃ a h', Does (handler (.file fault)) h₁ [] a h') :
    ∃ a h', Does (tryCatch act handler) h [] a h' := by
  rcases hact with ⟨a, h₁, hdoes⟩ | ⟨fault, h₁, hstop, hspawned⟩
  · refine ⟨a, h₁, ?_, hdoes.spawned⟩
    rw [run_tryCatch, hdoes.run]
  · obtain ⟨a, h₂, hlast⟩ := hcatch fault h₁
    refine ⟨a, h₂, ?_, hspawned.trans hlast.spawned⟩
    rw [run_tryCatch, hstop]
    exact hlast.run

/-- The action ends with a value, and this holds of the processes that it asks for and of the value. -/
def Ends (act : Action α) (h : Host) (P : List Call → α → Prop) : Prop := ∃ cs a h', Does act h cs a h' ∧ P cs a

theorem Ends.mono {P Q : List Call → α → Prop} (hact : Ends act h P) (hp : ∀ cs a, P cs a → Q cs a) : Ends act h Q := by
  obtain ⟨cs, a, h', hdoes, ha⟩ := hact
  exact ⟨cs, a, h', hdoes, hp cs a ha⟩

theorem Does.ends {P : List Call → β → Prop} (hact : Does act h [] a h₁) (hf : Ends (f a) h₁ P) :
    Ends (act >>= f) h P := by
  obtain ⟨cs, b, h₂, hdoes, hp⟩ := hf
  exact ⟨cs, b, h₂, hact.seq hdoes, hp⟩

theorem Ends.andPure {P : List Call → α → Prop} {Q : List Call → β → Prop} {g : α → β} (hact : Ends act h P)
    (hg : ∀ cs a, P cs a → Q cs (g a)) : Ends (act >>= fun a => pure (g a)) h Q := by
  obtain ⟨cs, a, h₁, hdoes, hp⟩ := hact
  exact ⟨cs, g a, h₁, hdoes.andPure g, hg cs a hp⟩

/-- What comes after asks for no process. -/
theorem Ends.bind {P : List Call → α → Prop} {Q : List Call → β → Prop} (hact : Ends act h P)
    (hf : ∀ cs a h₁, P cs a → ∃ b h₂, Does (f a) h₁ [] b h₂ ∧ Q cs b) : Ends (act >>= f) h Q := by
  obtain ⟨cs, a, h₁, hdoes, hp⟩ := hact
  obtain ⟨b, h₂, hlast, hq⟩ := hf cs a h₁ hp
  have hboth := hdoes.bind hlast
  rw [List.append_nil] at hboth
  exact ⟨cs, b, h₂, hboth, hq⟩

/-! Processes of one kind -/

variable {C : Call → Prop}

/-- This holds of every process that was asked for between the two hosts. -/
def CallsSince (C : Call → Prop) (h h' : Host) : Prop := ∃ cs, h'.calls = h.calls ++ cs ∧ ∀ c ∈ cs, C c

theorem callsSince_of_eq (hcalls : h₁.calls = h.calls) : CallsSince C h h₁ :=
  ⟨[], hcalls.trans (List.append_nil _).symm, nofun⟩

theorem CallsSince.trans (hfirst : CallsSince C h h₁) (hthen : CallsSince C h₁ h₂) : CallsSince C h h₂ := by
  obtain ⟨cs, hcalls, hcs⟩ := hfirst
  obtain ⟨ds, hcalls', hds⟩ := hthen
  refine ⟨cs ++ ds, by rw [hcalls', hcalls, List.append_assoc], fun c hc => ?_⟩
  exact (List.mem_append.mp hc).elim (hcs c) (hds c)

/-- However the action ends, this holds of every process that it has asked for. -/
def CallsOnly (C : Call → Prop) (act : Action α) (h : Host) : Prop := CallsSince C h (act h).2

theorem callsOnly_pure (a : α) (h : Host) : CallsOnly C (pure a) h := callsSince_of_eq rfl

theorem callsOnly_ofExcept (x : Except Stop α) (h : Host) : CallsOnly C (MonadExcept.ofExcept x : Action α) h := by
  cases x <;> exact callsSince_of_eq rfl

theorem callsOnly_log (level : LogLevel) (logger : String) (message : Text) (h : Host) :
    CallsOnly C (log level logger message) h := callsSince_of_eq rfl

theorem CallsOnly.bind (hact : CallsOnly C act h) (hf : ∀ a h₁, act h = (.ok a, h₁) → CallsOnly C (f a) h₁) :
    CallsOnly C (act >>= f) h := by
  rw [CallsOnly] at hact
  rw [CallsOnly, run_bind]
  rcases hrun : act h with ⟨stop | a, h₁⟩
  · rwa [hrun] at hact
  · rw [hrun] at hact
    exact hact.trans (hf a h₁ hrun)

theorem CallsOnly.tryCatch {handler : Stop → Action α} (hact : CallsOnly C act h)
    (hcatch : ∀ stop h₁, CallsOnly C (handler stop) h₁) : CallsOnly C (tryCatch act handler) h := by
  rw [CallsOnly] at hact
  rw [CallsOnly, run_tryCatch]
  rcases hrun : act h with ⟨stop | a, h₁⟩
  · rw [hrun] at hact
    exact hact.trans (hcatch stop h₁)
  · rwa [hrun] at hact

/-! Actions without an effect -/

/-- The action gives a value of the property and leaves the host as it was, but for what it tells the log. -/
def Notes (act : Action α) (h : Host) (P : α → Prop) : Prop :=
  ∃ a rs, act h = (.ok a, { h with journal := h.journal ++ rs }) ∧ P a

theorem notes_pure {a : α} (ha : P a) (h : Host) : Notes (pure a) h P := by
  refine ⟨a, [], ?_, ha⟩
  rw [List.append_nil]
  rfl

theorem notes_host {f : Host → Action β} (hf : Notes (f h) h Q) : Notes (host >>= f) h Q := hf

theorem notes_now {f : Moment → Action β} (hf : Notes (f h.clock) h Q) : Notes (now >>= f) h Q := hf

theorem notes_ofExcept {a : α} (hf : Notes (f a) h Q) :
    Notes ((MonadExcept.ofExcept (.ok a : Except Stop α) : Action α) >>= f) h Q := hf

theorem notes_record {f : Unit → Action β} (rs : List LogRecord)
    (hf : Notes (f ()) { h with journal := h.journal ++ rs } Q) : Notes (record rs >>= f) h Q := by
  obtain ⟨b, rs', hrun, hq⟩ := hf
  refine ⟨b, rs ++ rs', ?_, hq⟩
  rw [← List.append_assoc]
  exact hrun

theorem Notes.mono (hact : Notes act h P) {P' : α → Prop} (hp : ∀ a, P a → P' a) : Notes act h P' := by
  obtain ⟨a, rs, hrun, ha⟩ := hact
  exact ⟨a, rs, hrun, hp a ha⟩

/-- What comes after only tells the log. -/
theorem Ends.andNotes {P : List Call → Prop} (hact : Ends act h fun cs _ => P cs)
    (hf : ∀ a h₁, Notes (f a) h₁ fun _ => True) : Ends (act >>= f) h fun cs _ => P cs := by
  refine hact.bind fun cs a h₁ hp => ?_
  obtain ⟨b, rs, hrun, -⟩ := hf a h₁
  exact ⟨b, _, ⟨hrun, rfl, rfl, (List.append_nil _).symm⟩, hp⟩

/-- What does not stop is not caught. -/
theorem Notes.tryCatch (hact : Notes act h P) (handler : Stop → Action α) : Notes (tryCatch act handler) h P := by
  obtain ⟨a, rs, hrun, ha⟩ := hact
  refine ⟨a, rs, ?_, ha⟩
  rw [run_tryCatch, hrun]

end Action
end Runbook
