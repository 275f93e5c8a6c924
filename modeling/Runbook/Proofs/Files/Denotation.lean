import Runbook.Proofs.Files.Placement
import Runbook.Proofs.Files.Reduction
import Runbook.Proofs.Text.Search

/-!
What a text denotes for a process: paths are read back from their texts, and the names of a relative one are walked from
the directory of the process.
-/
namespace Runbook

variable {tree : FileTree} {place q cwd : Place} {name : Text} {names more : List Text} {p : Path} {t : Text}

namespace Path

/-- A path as it can be read from a text. -/
structure IsWritten (p : Path) : Prop where
  slashes : p.slashes ≤ 2
  names : ∀ name ∈ p.names, isName name = true ∧ '/' ∉ name

theorem isWritten_ofText (t : Text) : (ofText t).IsWritten := by
  constructor
  · unfold ofText
    dsimp only
    split <;> omega
  · intro name hname
    obtain ⟨hsplit, hisName⟩ := List.mem_filter.mp hname
    exact ⟨hisName, Place.not_mem_of_mem_splitAt hsplit⟩

theorem isWritten_ofPlace (hplace : Place.IsNormal place) : (ofPlace place).IsWritten :=
  ⟨Nat.le_succ 1, fun name hname => ⟨(hplace name hname).isName, (hplace name hname).2.2.2⟩⟩

theorem IsWritten.child (h : p.IsWritten) (hname : Place.IsName name) : (p.child name).IsWritten := by
  refine ⟨h.slashes, fun name' hname' => ?_⟩
  rcases List.mem_append.mp hname' with hold | hnew
  · exact h.names name' hold
  · rw [List.mem_singleton.mp hnew]
    exact ⟨hname.isName, hname.2.2.2⟩

theorem splitAt_slashes (k : Nat) (t : Text) :
    (Text.splitAt '/' (Text.repeated k '/' ++ t)).filter isName = (Text.splitAt '/' t).filter isName := by
  induction k with
  | zero => rfl
  | succ k ih =>
    have hempty : Text.splitAt '/' (Text.repeated (k + 1) '/' ++ t) =
        [] :: Text.splitAt '/' (Text.repeated k '/' ++ t) := rfl
    rw [hempty, List.filter_cons_of_neg (by decide), ih]

/-- The names of a path are all that is between the slashes of its text. -/
theorem filter_splitAt_join (h : ∀ name ∈ names, isName name = true ∧ '/' ∉ name) :
    (Text.splitAt '/' (Text.join "/" names)).filter isName = names := by
  cases names with
  | nil => rfl
  | cons name names =>
    have hjoin : Text.join "/" (name :: names) = Text.join ['/'] (name :: names) := rfl
    rw [hjoin, Text.splitAt_join (List.cons_ne_nil _ _) fun n hn => (h n hn).2]
    exact List.filter_eq_self.mpr fun n hn => (h n hn).1

theorem head_join (h : ∀ name ∈ names, isName name = true ∧ '/' ∉ name) :
    ∀ c ∈ (Text.join "/" names).head?, decide (c = '/') = false := by
  intro c hc
  rw [decide_eq_false_iff_not]
  rintro rfl
  cases names with
  | nil => cases hc
  | cons name names =>
    obtain ⟨rest, hrest⟩ := Text.exists_join_append "/" [name] names
    rw [List.singleton_append, Text.join] at hrest
    obtain ⟨hisName, hslash⟩ := h name List.mem_cons_self
    cases name with
    | nil => cases hisName
    | cons d name =>
      rw [hrest, List.cons_append] at hc
      obtain rfl : d = '/' := Option.mem_some_iff.mp hc
      exact hslash List.mem_cons_self

/-- A path that can be read from a text is read back from its own. -/
theorem ofText_toText (h : p.IsWritten) : ofText p.toText = p := by
  obtain ⟨slashes, names⟩ := p
  obtain ⟨hslashes, hnames⟩ := h
  by_cases hdot : slashes = 0 ∧ names = []
  · obtain ⟨rfl, rfl⟩ := hdot
    rfl
  · have htext : toText ⟨slashes, names⟩ = Text.repeated slashes '/' ++ Text.join "/" names := by
      unfold toText isAbsolute
      rw [if_pos (by simpa [Classical.or_iff_not_imp_left] using hdot)]
    have hrun : (Text.repeated slashes '/' ++ Text.join "/" names).takeWhile (· = '/') = Text.repeated slashes '/' :=
      Text.takeWhile_run (fun c hc => by simp [List.eq_of_mem_replicate hc]) (head_join hnames)
    rw [htext, ofText, hrun, splitAt_slashes, filter_splitAt_join hnames, Text.repeated, List.length_replicate]
    dsimp only
    rw [if_pos hslashes]

theorem IsWritten.toText_ne_nil (h : p.IsWritten) (hp : p.names ≠ []) : p.toText ≠ [] := by
  intro hnil
  have hread := ofText_toText h
  rw [hnil] at hread
  exact hp (hread ▸ rfl)

theorem ofText_name (hname : Place.IsName name) : ofText name = ⟨0, [name]⟩ := by
  have hwritten : IsWritten ⟨0, [name]⟩ := ⟨Nat.zero_le 2, by simp [hname.isName, hname.2.2.2]⟩
  exact ofText_toText hwritten

theorem isAbsolute_child (p : Path) (name : Text) : (p.child name).isAbsolute = p.isAbsolute := rfl

end Path

namespace FileTree

theorem walk_append (tree : FileTree) (place : Place) (names more : List Text) :
    tree.walk place (names ++ more) = tree.walk place names >>= fun q => tree.walk q more := by
  fun_induction walk tree place names with
  | case1 place => rfl
  | case2 place name names hnone => rw [List.cons_append, walk, hnone]; rfl
  | case3 place name names content hfile => rw [List.cons_append, walk, hfile]; rfl
  | case4 place name names hdir hlong =>
    rw [List.cons_append, walk, hdir]
    dsimp only
    rw [if_pos hlong]
    rfl
  | case5 place name names hdir hshort ih =>
    rw [List.cons_append, walk, hdir]
    dsimp only
    rw [if_neg hshort]
    exact ih

theorem walk_append_eq_ok_iff : tree.walk place (names ++ more) = .ok q ↔
    ∃ between, tree.walk place names = .ok between ∧ tree.walk between more = .ok q := by
  rw [walk_append]
  cases tree.walk place names <;> simp [bind, Except.bind]

/-- For a process in the directory the text leads to the target. No bound on the length of a path counts here. -/
def Denotes (tree : FileTree) (directory : Place) (t : Text) (target : Place) : Prop :=
  tree.walk (if (Path.ofText t).isAbsolute then [] else directory) (Path.ofText t).names = .ok target

theorem walk_of_locate (h : tree.locate cwd p = .ok q) : tree.walk (if p.isAbsolute then [] else cwd) p.names = .ok q := by
  unfold locate at h
  split at h
  · cases h
  · exact h

/-! From inside a directory -/

variable {base : Path} {file : Text}

/-- The path that leads to a file in a directory from outside leads to it from inside as well if it begins at the root of
all files, or if all of it but the directory and the file leads to one place from both. -/
theorem denotes_child_iff (hbase : base.IsWritten) (hname : Place.IsName name) (hfile : Place.IsName file)
    (hshort : (Text.utf8 file).length ≤ maxName) (hplace : place = Place.follow cwd base ++ [name])
    (hlocated : tree.locate cwd (base.child name) = .ok place) (hthere : tree.entry? place = some .directory) :
    tree.Denotes place ((base.child name).child file).toText (place ++ [file]) ↔
      base.isAbsolute = true ∨ tree.walk place base.names = .ok (Place.follow cwd base) := by
  have hread := Path.ofText_toText ((hbase.child hname).child hfile)
  have hlast : ∀ from' names, tree.walk from' names = .ok place →
      tree.walk from' (names ++ [file]) = .ok (place ++ [file]) := by
    intro from' names hwalk
    rw [walk_concat hwalk hthere hshort, Place.step, if_neg hfile.2.2.1]
  have hwalk := walk_of_locate hlocated
  rw [Path.isAbsolute_child] at hwalk
  rw [Denotes, hread, Path.isAbsolute_child, Path.isAbsolute_child]
  cases habs : base.isAbsolute with
  | true =>
    rw [habs, if_pos rfl] at hwalk
    rw [if_pos rfl]
    exact iff_of_true (hlast [] _ hwalk) (.inl rfl)
  | false =>
    have hfollow : Place.follow cwd base = base.names.foldl Place.step cwd := by
      rw [Place.follow, habs, if_neg Bool.false_ne_true]
    rw [habs, if_neg Bool.false_ne_true] at hwalk
    rw [if_neg Bool.false_ne_true]
    obtain ⟨between, hbetween, hstep⟩ := walk_append_eq_ok_iff.mp hwalk
    constructor
    · intro hdenotes
      obtain ⟨inside, hinside, hend⟩ := walk_append_eq_ok_iff.mp hdenotes
      obtain ⟨q, hq, hqname⟩ := walk_append_eq_ok_iff.mp hinside
      have hfirst := eq_foldl_of_walk hqname
      have hsecond := eq_foldl_of_walk hend
      simp only [List.foldl_cons, List.foldl_nil, Place.step, if_neg hname.2.2.1, if_neg hfile.2.2.1] at hfirst hsecond
      have hsame := List.append_cancel_right hsecond
      rw [hfirst, hplace] at hsame
      rw [List.append_cancel_right hsame]
      exact .inr hq
    · rintro (⟨⟨⟩⟩ | hroot)
      refine hlast place _ (walk_append_eq_ok_iff.mpr ⟨_, hroot, ?_⟩)
      rwa [hfollow, ← eq_foldl_of_walk hbetween]

/-- A path without a step back leads nowhere from inside a directory with nothing in it. -/
theorem walk_ne_follow (hplace : place = Place.follow cwd base ++ [name]) (hthere : tree.entry? place = some .directory)
    (hempty : ∀ q, place <+: q → q ≠ place → tree.entry? q = none) (hback : base.names.head? ≠ some "..".toList) :
    tree.walk place base.names ≠ .ok (Place.follow cwd base) := by
  have hlonger : ∀ rest, place ++ rest ≠ Place.follow cwd base := by
    intro rest heq
    have := congrArg List.length heq
    rw [hplace] at this
    simp at this
  cases hnames : base.names with
  | nil =>
    intro hwalk
    exact hlonger [] ((List.append_nil _).trans (Except.ok.inj hwalk))
  | cons n names =>
    have hdots : n ≠ "..".toList := fun hn => hback (by rw [hnames, hn]; rfl)
    rw [walk, hthere]
    dsimp only
    split
    · rintro ⟨⟩
    · rw [Place.step, if_neg hdots]
      cases names with
      | nil =>
        intro hwalk
        exact hlonger [n] (Except.ok.inj hwalk)
      | cons m names =>
        rw [walk, hempty _ (List.prefix_append _ _) (by simp)]
        rintro ⟨⟩

end FileTree
end Runbook
