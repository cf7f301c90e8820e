import Stencil.Proofs.CommandLine.Outcomes

/-!
# Batches

A batch loads all requests before it writes anything. If one of them is refused, it ends with the
words for the first such one and leaves the file tree as it is; otherwise it does what generating
the components one by one does, as long as no run changes the file of a later request
(`Command.batch_outcome`).

* `Command.generateEach`, the components of some files one by one;
* `Command.Undisturbed`: no run changes the file of a later request.
-/

set_option autoImplicit false

namespace Stencil

/-! ## Loading -/

/-- What a request is depends on the content of its file alone. -/
theorem Request.load_congr (host : Host) {tree later : FileTree} {path : Path}
    (h : later.read path = tree.read path) :
    Request.load host later path = Request.load host tree path := by
  rw [Request.load, Request.load, h]

/-- Requests are loaded in order, all of them or those in front of the first failure. -/
theorem loadAll_cases (host : Host) (tree : FileTree) (paths : List Path) :
    (∃ requests, loadAll host tree paths = .ok requests ∧
        paths.map (Request.load host tree) = requests.map .ok) ∨
      ∃ front path back failure, loadAll host tree paths = .error failure ∧
        paths = front ++ path :: back ∧
        (∀ earlier ∈ front, ∃ request, Request.load host tree earlier = .ok request) ∧
        Request.load host tree path = .error failure := by
  induction paths with
  | nil => exact Or.inl ⟨[], rfl, rfl⟩
  | cons path paths ih =>
    rw [loadAll]
    cases hload : Request.load host tree path with
    | error failure =>
      refine Or.inr ⟨[], path, paths, failure, rfl, rfl, ?_, hload⟩
      simp
    | ok request =>
      rcases ih with ⟨requests, hall, hrequests⟩ |
        ⟨front, bad, back, failure, hall, rfl, hfront, hbad⟩
      · rw [hall]
        refine Or.inl ⟨request :: requests, rfl, ?_⟩
        rw [List.map_cons, List.map_cons, hload, hrequests]
      · rw [hall]
        refine Or.inr ⟨path :: front, bad, back, failure, rfl, rfl, ?_, hbad⟩
        intro earlier hearlier
        rcases List.mem_cons.1 hearlier with rfl | hearlier
        · exact ⟨request, hload⟩
        · exact hfront earlier hearlier

theorem exists_request_of_loaded {host : Host} {tree : FileTree} {paths : List Path}
    {requests : List Request}    (h : paths.map (Request.load host tree) = requests.map .ok) :
    ∀ path ∈ paths, ∃ request, Request.load host tree path = .ok request := by
  intro path hpath
  have hmem : Request.load host tree path ∈ requests.map .ok := by
    rw [← h]
    exact List.mem_map_of_mem hpath
  obtain ⟨request, -, hrequest⟩ := List.mem_map.1 hmem
  exact ⟨request, hrequest.symm⟩

namespace Command

variable {host : Host} {settings : Settings} {tree : FileTree} {path : Path} {paths : List Path}
  {request : Request} {requests : List Request}

/-! ## One by one -/

/-- The components of some files generated one by one, each in the file tree that the ones before it
left, up to the first that does not succeed. -/
def generateEach (host : Host) (settings : Settings) : List Path → FileTree → Outcome
  | [], tree => { tree := tree, ending := some (.exit 0) }
  | path :: paths, tree =>
    let first := (generate (some path) settings).run host [] tree
    if first.ending = some (.exit 0) then
      first.followedBy (generateEach host settings paths first.tree)
    else first

/-- No run changes the file of a later request. -/
def Undisturbed (host : Host) (settings : Settings) : List Path → FileTree → Prop
  | [], _ => True
  | path :: paths, tree =>
    let first := (generate (some path) settings).run host [] tree
    first.ending = some (.exit 0) →
      (∀ later ∈ paths, first.tree.read later = tree.read later) ∧
        Undisturbed host settings paths first.tree

/-- Whether the requests stay undisturbed can be found out by running the commands. -/
instance decidableUndisturbed (host : Host) (settings : Settings) :
    ∀ (paths : List Path) (tree : FileTree), Decidable (Undisturbed host settings paths tree)
  | [], _ => isTrue trivial
  | path :: paths, tree =>
    have := decidableUndisturbed host settings paths
      ((generate (some path) settings).run host [] tree).tree
    inferInstanceAs (Decidable (_ → _ ∧ _))

theorem run_generate_of_load (settings : Settings) (input : Bytes)
    (hload : Request.load host tree path = .ok request) :
    (generate (some path) settings).run host input tree =
      Outcome.components host settings [request] { tree := tree } := by
  rw [run, hload]

/-- Where the requests stay as they are, generating them one by one does what a batch does with
them. -/
theorem generateEach_eq_components (hundisturbed : Undisturbed host settings paths tree)
    (hload : paths.map (Request.load host tree) = requests.map .ok) :
    generateEach host settings paths tree =
      Outcome.components host settings requests { tree := tree } := by
  -- The induction follows the paths; the tree changes with each run, but not what is loaded.
  induction paths generalizing tree requests with
  | nil =>
    obtain rfl := List.map_eq_nil_iff.1 hload.symm
    rfl
  | cons path paths ih =>
    obtain ⟨request, later, rfl, hfirst, hlater⟩ := List.map_eq_cons_iff.1 hload.symm
    have hrun := run_generate_of_load settings [] hfirst.symm
    obtain ⟨middle, result, hwrite⟩ : ∃ middle result,
        (Rendering.ofRequest request).write host settings.library tree = (middle, result) :=
      ⟨_, _, rfl⟩
    rw [generateEach]
    rw [Undisturbed] at hundisturbed
    cases result with
    | error failure =>
      rw [Outcome.components_cons_of_error hwrite] at hrun ⊢
      rw [hrun]
      exact if_neg fun hsuccess => failure.ending_ne_exit_zero (Option.some.inj hsuccess)
    | ok report =>
      rw [Outcome.components_cons_of_ok hwrite] at hrun ⊢
      rw [hrun] at hundisturbed ⊢
      obtain ⟨hsame, hrest⟩ := hundisturbed rfl
      have hloaded : paths.map (Request.load host middle) = later.map .ok := by
        rw [hlater]
        exact List.map_congr_left fun path hpath => Request.load_congr host (hsame path hpath)
      refine (if_pos rfl).trans ?_
      rw [Outcome.followedBy_assoc, Outcome.components, Outcome.start_followedBy]
      exact congrArg (Outcome.followedBy _) (ih hrest hloaded)

/-! ## Batches -/

theorem run_batch_of_ok (settings : Settings) (input : Bytes)
    (h : loadAll host tree paths = .ok requests) :
    (batch paths settings).run host input tree =
      Outcome.components host settings requests { tree := tree } := by
  rw [run, h]

/-- A batch with a refused request says why, and does nothing else. -/
theorem run_batch_of_refused (settings : Settings) (input : Bytes) {refusal : Refusal}
    (h : loadAll host tree paths = .error (.refused refusal)) :
    (batch paths settings).run host input tree =
      { tree := tree, output := [], errors := Text.lines [refusal.message],
        ending := some (.exit 1) } := by
  rw [run, h]
  simp [Outcome.failOn, Outcome.fail, Outcome.warn, Text.lines]

/-- **The outcome of a batch** whose files each hold a request or one that is refused, on every
host.

If some request is refused, the batch ends with exit status 1 and the words for the first of those,
prints nothing else and leaves the file tree as it is.

If none is, the components are written and reported in turn, each from its request alone, up to the
first that is not written; and if no run changes the file of a later request, all of the outcome is
that of generating them one by one. -/
theorem batch_outcome (host : Host) (settings : Settings) (tree : FileTree) (input : Bytes)
    (paths : List Path)
    (hload : ∀ path ∈ paths, (∃ request, Request.load host tree path = .ok request) ∨
      ∃ refusal, Request.load host tree path = .error (.refused refusal)) :
    let outcome := (batch paths settings).run host input tree
    ((∃ path ∈ paths, ∃ refusal, Request.load host tree path = .error (.refused refusal)) →
      ∃ front path back refusal, paths = front ++ path :: back ∧
        (∀ earlier ∈ front, ∃ request, Request.load host tree earlier = .ok request) ∧
        Request.load host tree path = .error (.refused refusal) ∧
        outcome = { tree := tree, output := [], errors := Text.lines [refusal.message],
                    ending := some (.exit 1) }) ∧
    ((∀ path ∈ paths, ∃ request, Request.load host tree path = .ok request) →
      (∃ requests written middle, paths.map (Request.load host tree) = requests.map .ok ∧
        outcome.Progress host settings tree requests written middle) ∧
      (Undisturbed host settings paths tree →
        outcome = generateEach host settings paths tree)) := by
  intro outcome
  rcases loadAll_cases host tree paths with ⟨requests, hall, hrequests⟩ |
    ⟨front, path, back, failure, hall, rfl, hfront, hfailure⟩
  · have houtcome : outcome = Outcome.components host settings requests { tree := tree } :=
      run_batch_of_ok settings input hall
    rw [houtcome]
    constructor
    · rintro ⟨path, hpath, refusal, hrefused⟩
      obtain ⟨request, hrequest⟩ := exists_request_of_loaded hrequests path hpath
      exact absurd (hrequest.symm.trans hrefused) (by simp)
    · intro _
      obtain ⟨written, middle, hprogress⟩ :=
        Outcome.progress_components host settings requests tree
      refine ⟨⟨requests, written, middle, hrequests, hprogress⟩, ?_⟩
      intro hundisturbed
      exact (generateEach_eq_components hundisturbed hrequests).symm
  · have hpath : path ∈ front ++ path :: back := by simp
    rcases hload path hpath with ⟨request, hrequest⟩ | ⟨refusal, hrefused⟩
    · exact absurd (hrequest.symm.trans hfailure) (by simp)
    obtain rfl : failure = .refused refusal := Except.error.inj (hfailure.symm.trans hrefused)
    constructor
    · intro _
      exact ⟨front, path, back, refusal, rfl, hfront, hrefused,
        run_batch_of_refused settings input hall⟩
    · intro hloaded
      obtain ⟨request, hrequest⟩ := hloaded path hpath
      exact absurd (hrequest.symm.trans hfailure) (by simp)

/-- A batch of two requests, of which the second finds a file in its way; and one whose second
request is no mapping. -/
theorem batch_outcome_blocked :
    let settings : Settings := ⟨⟨[], ["library"]⟩, false⟩
    let tree : FileTree := ⟨[], [(["a.json"], .file (Utf8.ascii "\x7b\"componentName\":\"a\"\x7d")),
      (["b.json"], .file (Utf8.ascii "\x7b\"category\":\"../b.json\"\x7d")),
      (["c.json"], .file (Utf8.ascii "[]"))]⟩
    let blocked : List Path := [⟨[], ["a.json"]⟩, ⟨[], ["b.json"]⟩]
    let refused : List Path := [⟨[], ["a.json"]⟩, ⟨[], ["c.json"]⟩]
    let outcome := (batch blocked settings).run .usual [] tree
    outcome.ending = some (.exit 1) ∧ outcome = generateEach .usual settings blocked tree ∧
      (∃ requests written middle, blocked.map (Request.load .usual tree) = requests.map .ok ∧
        outcome.Progress .usual settings tree requests written middle) ∧
      ∃ refusal : Refusal, (batch refused settings).run .usual [] tree =
        { tree := tree, output := [], errors := Text.lines [refusal.message],
          ending := some (.exit 1) } := by
  intro settings tree blocked refused outcome
  have hending : outcome.ending = some (.exit 1) := by
    decide +kernel
  have hloaded : ∀ path ∈ blocked, ∃ request, Request.load .usual tree path = .ok request := by
    have hok : ∀ path ∈ blocked, (Request.load .usual tree path).toBool = true := by
      decide +kernel
    intro path hpath
    cases hload : Request.load .usual tree path with
    | ok request => exact ⟨request, rfl⟩
    | error failure =>
      have hfalse := hok path hpath
      rw [hload] at hfalse
      cases hfalse
  have hundisturbed : Undisturbed .usual settings blocked tree := by
    decide +kernel
  have hrefused : Request.load .usual tree ⟨[], ["c.json"]⟩ = .error (.refused .noMapping) := by
    decide +kernel
  have hmixed : ∀ path ∈ refused, (∃ request, Request.load .usual tree path = .ok request) ∨
      ∃ refusal, Request.load .usual tree path = .error (.refused refusal) := by
    intro path hpath
    rcases List.mem_cons.1 hpath with rfl | hpath
    · exact Or.inl (hloaded _ List.mem_cons_self)
    · obtain rfl := List.mem_singleton.1 hpath
      exact Or.inr ⟨.noMapping, hrefused⟩
  obtain ⟨-, hall⟩ :=
    batch_outcome .usual settings tree [] blocked fun path hpath => Or.inl (hloaded path hpath)
  obtain ⟨hprogress, heach⟩ := hall hloaded
  obtain ⟨hfirst, -⟩ := batch_outcome .usual settings tree [] refused hmixed
  obtain ⟨-, -, -, refusal, -, -, -, houtcome⟩ :=
    hfirst ⟨⟨[], ["c.json"]⟩, by decide, .noMapping, hrefused⟩
  exact ⟨hending, heach hundisturbed, hprogress, refusal, houtcome⟩

end Command

end Stencil
