import Mathlib.Logic.Function.Basic
import Runbook.Proofs.Host.Workspace

/-!
Stays in workspaces, one after another or one in another, from any number of allocators. A session is what an observer
sees of them: bodies end as they like, and what else is done to the files is left open.
-/
namespace Runbook

variable {α ι : Type} [DecidableEq ι] {pool pool₁ pool₂ pool' : ι → Allocator} {i : ι} {h h' : Host} {stay stay' : Stay}
  {stays : List Stay} {path : Path} {above files : FileTree}

/-- The allocators after one of them has given its next name. -/
def Allocator.take (pool : ι → Allocator) (i : ι) : ι → Allocator := Function.update pool i (pool i).advance

/-- One stay in a workspace: the allocator that gave it, and the hosts before it, at both ends of its body and after
it. -/
structure Stay where
  allocator : Allocator
  before : Host
  start : Host
  finish : Host
  after : Host

namespace Stay

def name (stay : Stay) : Text := stay.allocator.nextName stay.before.processId

def place (stay : Stay) : Place := stay.allocator.nextPlace stay.before

/-- The workspace was not there before, is empty at the start and gone afterwards, and no other entry goes with it. -/
structure IsFresh (stay : Stay) : Prop where
  made : stay.allocator.Made stay.before stay.start
  gone : ∀ q, stay.place <+: q → stay.after.files.entry? q = none
  kept : ∀ q, ¬ stay.place <+: q → stay.after.files.entry? q = stay.finish.files.entry? q

end Stay

/-- A session of a family of allocators. In a stay the body has its own session and comes back to the directory where it
began; whether it returns or is stopped is left open. -/
inductive Session : (ι → Allocator) → Host → List Stay → (ι → Allocator) → Host → Prop
  | done (pool : ι → Allocator) (h : Host) : Session pool h [] pool h
  | work {pool pool' : ι → Allocator} {h h₁ h' : Host} {stays : List Stay} (hsound : h₁.IsSound)
    (hrest : Session pool h₁ stays pool' h') : Session pool h stays pool' h'
  | refuse {α : Type} {pool pool₁ pool' : ι → Allocator} {h h' : Host} {stays : List Stay} {stop : Stop} (i : ι)
    (body : Path → Action α) (hstop : ((pool i).enter h).1 = .error stop)
    (hpool : pool₁ = pool ∨ pool₁ = Allocator.take pool i)
    (hrest : Session pool₁ ((pool i).acquire body h).2 stays pool' h') : Session pool h stays pool' h'
  | stay {α : Type} {pool pool₁ pool' : ι → Allocator} {h h₁ h' : Host} {inner stays : List Stay} {path : Path} (i : ι)
    (body : Path → Action α) (hstart : (pool i).enter h = (.ok path, h₁))
    (hinner : Session (Allocator.take pool i) h₁ inner pool₁ (body path h₁).2) (hback : (body path h₁).2.cwd = h₁.cwd)
    (hrest : Session pool₁ ((pool i).acquire body h).2 stays pool' h') :
    Session pool h (⟨pool i, h, h₁, (body path h₁).2, ((pool i).acquire body h).2⟩ :: (inner ++ stays)) pool' h'

namespace Session

/-! Names -/

/-- Only the counters of the allocators differ, and they have gone up. -/
structure Counts (pool pool' : ι → Allocator) : Prop where
  token : ∀ i, (pool' i).token = (pool i).token
  next : ∀ i, (pool i).next ≤ (pool' i).next

omit [DecidableEq ι] in
theorem Counts.refl (pool : ι → Allocator) : Counts pool pool := ⟨fun _ => rfl, fun _ => le_rfl⟩

omit [DecidableEq ι] in
theorem Counts.trans (h₁ : Counts pool pool₁) (h₂ : Counts pool₁ pool₂) : Counts pool pool₂ :=
  ⟨fun i => (h₂.token i).trans (h₁.token i), fun i => (h₁.next i).trans (h₂.next i)⟩

theorem counts_take (pool : ι → Allocator) (i : ι) : Counts pool (Allocator.take pool i) := by
  constructor <;> intro j <;> by_cases hj : j = i
  · subst hj
    simp [Allocator.take, Allocator.advance]
  · simp [Allocator.take, hj]
  · subst hj
    simp [Allocator.take, Allocator.advance]
  · simp [Allocator.take, hj]

/-- The number of the stay is one that its allocator has given between the two states. -/
def Issued (pool pool' : ι → Allocator) (stay : Stay) : Prop :=
  ∃ i, stay.allocator.token = (pool i).token ∧ (pool i).next ≤ stay.allocator.next ∧
    stay.allocator.next < (pool' i).next

omit [DecidableEq ι] in
theorem Issued.mono (h : Issued pool₁ pool₂ stay) (hbefore : Counts pool pool₁) (hafter : Counts pool₂ pool') :
    Issued pool pool' stay := by
  obtain ⟨i, htoken, hle, hlt⟩ := h
  exact ⟨i, htoken.trans (hbefore.token i), (hbefore.next i).trans hle, hlt.trans_le (hafter.next i)⟩

omit [DecidableEq ι] in
/-- A name that was given before another differs from it. -/
theorem name_ne_of_issued (htokens : Function.Injective fun i => (pool i).token) (hcounts : Counts pool pool₁)
    (h : Issued pool pool₁ stay) (h' : Issued pool₁ pool₂ stay') : stay.name ≠ stay'.name := by
  intro hname
  obtain ⟨htoken, hnext⟩ := Allocator.nextName_inj hname
  obtain ⟨i, hi, -, hlt⟩ := h
  obtain ⟨j, hj, hle, -⟩ := h'
  obtain rfl : i = j := htokens (show (pool i).token = (pool j).token by rw [← hi, htoken, hj, hcounts.token])
  omega

theorem counts_and_issued (hs : Session pool h stays pool' h') :
    Counts pool pool' ∧ ∀ stay ∈ stays, Issued pool pool' stay := by
  induction hs with
  | done pool h => exact ⟨.refl pool, nofun⟩
  | work hsound hrest ih => exact ih
  | @refuse _ pool pool₁ _ _ _ _ _ i body hstop hpool hrest ih =>
    have hcounts : Counts pool pool₁ := by
      rcases hpool with rfl | rfl
      · exact .refl _
      · exact counts_take _ i
    exact ⟨hcounts.trans ih.1, fun stay hstay => (ih.2 stay hstay).mono hcounts (.refl _)⟩
  | @stay _ pool _ _ _ _ _ _ _ _ i body hstart hinner hback hrest ihinner ihrest =>
    have htake := counts_take pool i
    have hlast := ihinner.1.trans ihrest.1
    refine ⟨htake.trans hlast, fun stay hstay => ?_⟩
    rcases List.mem_cons.mp hstay with rfl | hstay
    · refine ⟨i, rfl, le_rfl, lt_of_lt_of_le ?_ (hlast.next i)⟩
      simp [Allocator.take, Allocator.advance]
    · rcases List.mem_append.mp hstay with hstay | hstay
      · exact (ihinner.2 stay hstay).mono htake ihrest.1
      · exact (ihrest.2 stay hstay).mono (htake.trans ihinner.1) (.refl _)

theorem nodup_names (htokens : Function.Injective fun i => (pool i).token) (hs : Session pool h stays pool' h') :
    (stays.map Stay.name).Nodup := by
  induction hs with
  | done pool h => exact List.nodup_nil
  | work hsound hrest ih => exact ih htokens
  | refuse i body hstop hpool hrest ih =>
    refine ih ?_
    rcases hpool with rfl | rfl
    · exact htokens
    · simpa only [(counts_take _ i).token] using htokens
  | @stay _ pool pool₁ pool' h h₁ _ inner stays path i body hstart hinner hback hrest ihinner ihrest =>
    have htake := counts_take pool i
    obtain ⟨hcounts, hissued⟩ := counts_and_issued hinner
    obtain ⟨hcounts', hissued'⟩ := counts_and_issued hrest
    have htokens₁ : Function.Injective fun j => (Allocator.take pool i j).token := by
      simpa only [htake.token] using htokens
    have htokens₂ : Function.Injective fun j => (pool₁ j).token := by simpa only [hcounts.token] using htokens₁
    have hfirst : Issued pool (Allocator.take pool i)
        ⟨pool i, h, h₁, (body path h₁).2, ((pool i).acquire body h).2⟩ :=
      ⟨i, rfl, le_rfl, by simp [Allocator.take, Allocator.advance]⟩
    rw [List.map_cons, List.map_append, List.nodup_cons]
    refine ⟨?_, List.nodup_append.mpr ⟨ihinner htokens₁, ihrest htokens₂, ?_⟩⟩
    · rw [← List.map_append]
      intro hm
      obtain ⟨later, hlater, hname⟩ := List.mem_map.mp hm
      have hissued'' : Issued (Allocator.take pool i) pool' later := by
        rcases List.mem_append.mp hlater with hlater | hlater
        · exact (hissued later hlater).mono (.refl _) hcounts'
        · exact (hissued' later hlater).mono hcounts (.refl _)
      exact name_ne_of_issued htokens htake hfirst hissued'' hname.symm
    · intro name hname name' hname'
      obtain ⟨stay, hstay, rfl⟩ := List.mem_map.mp hname
      obtain ⟨stay', hstay', rfl⟩ := List.mem_map.mp hname'
      exact name_ne_of_issued htokens₁ hcounts (hissued stay hstay) (hissued' stay' hstay')

/-! Files -/

/-- A stay that has begun leaves the host sound, and is fresh. -/
theorem isFresh_of_stay {a : Allocator} {body : Path → Action α} {h₁ : Host} (hsound : h.IsSound)
    (hstart : a.enter h = (.ok path, h₁)) (hsound₂ : (body path h₁).2.IsSound)
    (hback : (body path h₁).2.cwd = h₁.cwd) :
    (a.acquire body h).2.IsSound ∧ Stay.IsFresh ⟨a, h, h₁, (body path h₁).2, (a.acquire body h).2⟩ := by
  obtain ⟨rfl, above, files, ho, rfl⟩ := Allocator.exists_of_enter hsound hstart
  have hmade := Allocator.made_entered hsound ho
  have hentry := hmade.entry?_removed hback
  rw [Allocator.run_acquire ho]
  refine ⟨hmade.isSound_removed hsound hback hsound₂, hmade, fun q hq => ?_, fun q hq => ?_⟩
  · exact (hentry q).trans (if_pos hq)
  · exact (hentry q).trans (if_neg hq)

theorem isSound_of_refused {a : Allocator} {stop : Stop} (hsound : h.IsSound) (hstop : (a.enter h).1 = .error stop)
    (body : Path → Action α) : (a.acquire body h).2.IsSound := by
  have hclosed : ∀ above files, ¬ a.Opens h above files := by
    intro above files ho
    rw [Allocator.run_enter ho] at hstop
    cases hstop
  obtain ⟨stop, files, hstop, hextends⟩ := Allocator.exists_of_not_opens hsound hclosed
  rw [Allocator.run_acquire_of_error hstop]
  exact ⟨hextends.isTree, hextends.grows _ _ hsound.cwd⟩

/-- Every stay of a session is fresh, and the files stay a tree. -/
theorem isSound_and_isFresh (hsound : h.IsSound) (hs : Session pool h stays pool' h') :
    h'.IsSound ∧ ∀ stay ∈ stays, stay.IsFresh := by
  induction hs with
  | done pool h => exact ⟨hsound, nofun⟩
  | work hsound₁ hrest ih => exact ih hsound₁
  | refuse i body hstop hpool hrest ih => exact ih (isSound_of_refused hsound hstop body)
  | stay i body hstart hinner hback hrest ihinner ihrest =>
    obtain ⟨-, above, files, ho, hentered⟩ := Allocator.exists_of_enter hsound hstart
    have hmade := Allocator.made_entered hsound ho
    obtain ⟨hsound₂, hfresh⟩ := ihinner (hentered ▸ hmade.isSound)
    obtain ⟨hsound₃, hfirst⟩ := isFresh_of_stay hsound hstart hsound₂ hback
    obtain ⟨hlast, hfresh'⟩ := ihrest hsound₃
    refine ⟨hlast, ?_⟩
    rw [List.forall_mem_cons, List.forall_mem_append]
    exact ⟨hfirst, hfresh, hfresh'⟩

end Session
end Runbook
