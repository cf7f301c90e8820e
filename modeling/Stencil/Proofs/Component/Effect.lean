import Stencil.Proofs.Component.Agreement
import Stencil.Proofs.Storage.Frame

/-!
# What a run does to the file tree

Whatever its outcome, writing a component changes a file tree in few places: it makes directories on
the way to the target, and writes some first ones of the documents, each of them completely
(`Rendering.effect_of_write`). All documents are encoded beforehand, so nothing changes where one of
them cannot be; and a second run finds everything in place.
-/

set_option autoImplicit false

namespace Stencil

namespace Rendering

variable {host : Host} {rendering : Rendering} {library : Path} {before after : FileTree}

/-- The first ones of the encoded files belong to the first ones of the documents. -/
theorem encode_take {documents : List Document} {written left : List (Text × Bytes)}
    (h : rendering.encode documents = .ok (written ++ left)) :
    rendering.encode (documents.take written.length) = .ok written := by
  induction documents generalizing written with
  | nil =>
    obtain ⟨rfl, -⟩ := List.append_eq_nil_iff.1 (Except.ok.inj h).symm
    rfl
  | cons first documents ih =>
    cases written with
    | nil => rfl
    | cons file written =>
      rw [encode] at h
      split at h
      · cases h
      · next bytes hbytes =>
        split at h
        · cases h
        · next others hothers =>
          obtain ⟨rfl, rfl⟩ := List.cons.inj (Except.ok.inj h)
          rw [List.length_cons, List.take_succ_cons, encode, hbytes, ih hothers]

/-- What a run may have done to a file tree when it has written some of the documents: these are the
first ones, each holds its complete text, and nothing else has changed but that there are
directories on the way to the target. -/
structure Effect (rendering : Rendering) (library : Path) (before after : FileTree)
    (written : List Document) : Prop where
  first : written <+: Document.all
  changes : before.Changes after (·.OnTheWayTo (rendering.request.target library))
    (fun path => ∃ document ∈ written,
      path = (rendering.request.target library).append [document.fileName])
  contents : ∀ document ∈ written, ∃ bytes, Utf8.encode (rendering.content document) = .ok bytes ∧
    after.read ((rendering.request.target library).append [document.fileName]) = .ok bytes

/-- Before anything is written, there may be directories on the way to the target. -/
theorem Effect.none_written
    (hway : before.Changes after (·.OnTheWayTo (rendering.request.target library))
      (fun _ => False)) : rendering.Effect library before after [] where
  first := List.nil_prefix
  changes := hway.mono (fun _ h => h) (fun _ => False.elim)
  contents := by
    intro document hdocument
    cases hdocument

/-- Of the encoded documents, some first ones are written, and all of them if nothing stops the
work; then a second time changes nothing. -/
theorem effect_of_writeAll {middle : FileTree} {files : List (Text × Bytes)}
    {fault : Option FileFault} (hfiles : rendering.encoded = .ok files)
    (hway : before.Changes middle (·.OnTheWayTo (rendering.request.target library))
      (fun _ => False))
    (hwritten : middle.writeAll (rendering.request.target library) files = (after, fault)) :
    ∃ written, rendering.Effect library before after written ∧
      (fault = none → written = Document.all ∧
        after.writeAll (rendering.request.target library) files = (after, none)) := by
  obtain ⟨done, left, rfl, hdone, hleft⟩ := FileTree.writeAll_split hwritten
  have hencoded := encode_take hfiles
  have hfirst := Document.all.take_prefix done.length
  have hapart : ((Document.all.take done.length).map Document.fileName).Nodup :=
    Document.nodup_fileNames.sublist (hfirst.sublist.map Document.fileName)
  obtain ⟨hreads, hcontents⟩ := read_of_encode hencoded hapart hdone
  refine ⟨Document.all.take done.length, ⟨hfirst, ?_, hcontents⟩, ?_⟩
  · refine (hway.mono (fun _ h => h) (fun _ => False.elim)).trans
      ((FileTree.changes_writeAll hdone).mono (fun _ => False.elim) ?_)
    rintro path ⟨name, hname, rfl⟩
    rw [(encode_spec hencoded).1] at hname
    obtain ⟨document, hdocument, rfl⟩ := List.mem_map.1 hname
    exact ⟨document, hdocument, rfl⟩
  · intro hnone
    obtain rfl := hleft hnone
    rw [List.append_nil] at hfiles ⊢
    have hlength : done.length = Document.all.length := by
      rw [← List.length_map Prod.fst, (encode_spec hfiles).1, List.length_map]
    rw [hlength, List.take_length]
    exact ⟨rfl, FileTree.writeAll_of_reads hreads⟩

/-- The effect of a run, with its outcome. -/
theorem effect_of_run {outcome : Except WriteFailure Report}
    (hrun : rendering.write host library before = (after, outcome)) :
    ∃ written, rendering.Effect library before after written ∧
      (∀ fault, outcome = .error (.unencodable fault) → after = before) ∧
      (∀ report, outcome = .ok report →
        written = Document.all ∧ rendering.write host library after = (after, .ok report)) := by
  -- The cases are the points at which the run can end.
  unfold write at hrun
  split at hrun
  · cases hrun
    refine ⟨[], .none_written (FileTree.Changes.refl _ _ _), fun _ _ => rfl, ?_⟩
    rintro report ⟨⟩
  next hroom =>
  split at hrun
  · cases hrun
    refine ⟨[], .none_written (FileTree.Changes.refl _ _ _), fun _ _ => rfl, ?_⟩
    rintro report ⟨⟩
  · next files hfiles =>
    dsimp only at hrun
    split at hrun
    · next middle fault hstopped =>
      cases hrun
      refine ⟨[], .none_written (FileTree.changes_ensureDirectory hstopped).1, ?_, ?_⟩
      · rintro other ⟨⟩
      · rintro report ⟨⟩
    · next middle hmade =>
      obtain ⟨hway, hdirectory⟩ := FileTree.changes_ensureDirectory hmade
      split at hrun
      · next stopped fault hwritten =>
        cases hrun
        obtain ⟨written, heffect, -⟩ := effect_of_writeAll hfiles hway hwritten
        refine ⟨written, heffect, ?_, ?_⟩
        · rintro other ⟨⟩
        · rintro report ⟨⟩
      · next last hwritten =>
        cases hrun
        obtain ⟨written, heffect, hall⟩ := effect_of_writeAll hfiles hway hwritten
        obtain ⟨hdone, hagain⟩ := hall rfl
        -- For a second run the target is there.
        have hthere := FileTree.ensureDirectory_of_directory host
          ((FileTree.changes_writeAll hwritten).grows.inspect_directory (hdirectory rfl))
        refine ⟨written, heffect, ?_, ?_⟩
        · rintro other ⟨⟩
        · rintro report ⟨⟩
          refine ⟨hdone, ?_⟩
          rw [write, if_neg hroom, hfiles]
          dsimp only
          rw [hthere]
          dsimp only
          rw [hagain]

/-- **The effect of a run.** On every host and whatever its outcome, nothing is taken away, new
directories are only where prefixes of the target lead, and a file that is new or has changed is one
of some first ones of the three documents, in the order in which they are written. Each of these
holds its complete text. If a document cannot be encoded, nothing changes at all. If the run
succeeds, all three are in place, and a second run gives the same report and changes nothing. -/
theorem effect_of_write (host : Host) (request : Request) (library : Path) (before : FileTree) :
    let rendering := Rendering.ofRequest request
    let after := (rendering.write host library before).1
    let outcome := (rendering.write host library before).2
    ∃ written, rendering.Effect library before after written ∧
      (∀ fault, outcome = .error (.unencodable fault) → after = before) ∧
      (∀ report, outcome = .ok report →
        written = Document.all ∧ rendering.write host library after = (after, .ok report)) := by
  intro rendering after outcome
  exact effect_of_run rfl

/-- A component whose category leads back over a directory that is not there yet, next to a file;
and one whose markup cannot be encoded. -/
theorem effect_of_write_kit :
    let request : Request :=
      { componentName := some "Card", sourceHtml := "<p>x</p>", category := some "a/../kit"
        tags := [], options := {}, description := none }
    let broken : Request := { request with sourceHtml := [.half 0] }
    let before : FileTree := ⟨[], [(["notes"], .file [1])]⟩
    let library : Path := ⟨[], []⟩
    let after := ((Rendering.ofRequest request).write .usual library before).1
    let locations : List Location :=
      [["notes"], ["a"], ["kit"], ["kit", "card"], ["kit", "card", "index.hbs"],
        ["kit", "card", "fields.json"], ["kit", "card", "meta.json"]]
    after.entries.map Prod.fst = locations ∧
      (∃ report, (Rendering.ofRequest request).write .usual library after = (after, .ok report) ∧
        (Rendering.ofRequest request).Effect library before after Document.all) ∧
      ((Rendering.ofRequest broken).write .usual library before).1 = before := by
  intro request broken before library after locations
  have hlocations : after.entries.map Prod.fst = locations := by
    decide +kernel
  have hsucceeds : ((Rendering.ofRequest request).write .usual library before).2.toBool = true := by
    decide +kernel
  have hfails : ((Rendering.ofRequest broken).write .usual library before).2 =
      .error (.unencodable ⟨.half 0, 0, 1⟩) := by
    decide +kernel
  obtain ⟨written, heffect, -, hagain⟩ := effect_of_write .usual request library before
  obtain ⟨-, -, hunchanged, -⟩ := effect_of_write .usual broken library before
  refine ⟨hlocations, ?_, hunchanged _ hfails⟩
  cases hrun : ((Rendering.ofRequest request).write .usual library before).2 with
  | error failure =>
    rw [hrun] at hsucceeds
    cases hsucceeds
  | ok report =>
    obtain ⟨rfl, hsame⟩ := hagain report hrun
    exact ⟨report, hsame, heffect⟩

end Rendering

end Stencil
