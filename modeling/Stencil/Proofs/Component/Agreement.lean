import Stencil.Proofs.Json.Results
import Stencil.Proofs.Storage.ReadBack
import Stencil.Proofs.Template.Placeholders
import Stencil.Proofs.Text.Utf8

/-!
# The documents of a component agree

Where a component is written, each of its documents can be read back below the reported directory
(`Rendering.holds_of_write`). For markup without braces the list of fields then names the
placeholders of the template, each once and in the order in which they first come up, and their
number is the reported one (`Rendering.documents_agree`).
-/

set_option autoImplicit false

namespace Stencil

/-! ## Stored documents -/

/-- Whether a text is what the file at a path holds. -/
def FileTree.Holds (tree : FileTree) (path : Path) (text : Text) : Prop :=
  ∃ bytes, tree.read path = .ok bytes ∧ Utf8.decode bytes = .ok text

namespace Document

theorem isFileName (document : Document) : FileTree.IsFileName document.fileName := by
  cases document with
  | template => exact ⟨rfl, by decide⟩
  | fields => exact ⟨rfl, by decide⟩
  | metadata => exact ⟨rfl, by decide⟩

theorem nodup_fileNames : (all.map fileName).Nodup := by
  decide

theorem mem_all (document : Document) : document ∈ all := by
  cases document <;> decide

end Document

namespace Rendering

variable {host : Host} {rendering : Rendering} {library : Path} {before after : FileTree}
  {report : Report}

/-- Encoding gives the bytes of each document under its file name. -/
theorem encode_spec {documents : List Document} {files : List (Text × Bytes)}
    (h : rendering.encode documents = .ok files) :
    files.map Prod.fst = documents.map Document.fileName ∧
      ∀ document ∈ documents, ∃ bytes, (document.fileName, bytes) ∈ files ∧
        Utf8.encode (rendering.content document) = .ok bytes := by
  induction documents generalizing files with
  | nil =>
    cases h
    exact ⟨rfl, fun _ hdocument => absurd hdocument List.not_mem_nil⟩
  | cons first documents ih =>
    rw [encode] at h
    split at h
    · cases h
    · next bytes hbytes =>
      split at h
      · cases h
      · next others hothers =>
        cases h
        obtain ⟨hnames, hcontents⟩ := ih hothers
        refine ⟨congrArg (List.cons first.fileName) hnames, ?_⟩
        intro document hdocument
        rcases List.mem_cons.1 hdocument with rfl | hdocument
        · exact ⟨bytes, List.mem_cons_self, hbytes⟩
        · obtain ⟨other, hmem, hother⟩ := hcontents document hdocument
          exact ⟨other, List.mem_cons_of_mem _ hmem, hother⟩

/-- A write that succeeds has encoded all documents and written all of them into the target. -/
theorem exists_files_of_write (h : rendering.write host library before = (after, .ok report)) :
    ∃ (files : List (Text × Bytes)) (middle : FileTree), rendering.encoded = .ok files ∧
      middle.writeAll (rendering.request.target library) files = (after, none) ∧
      report.target = rendering.request.target library ∧
      report.fieldCount = rendering.template.fields.length := by
  unfold write at h
  split at h
  · cases h
  split at h
  · cases h
  · next files hfiles =>
    dsimp only at h
    split at h
    · cases h
    · next middle _ =>
      split at h
      · cases h
      · next hwritten =>
        cases h
        exact ⟨files, middle, hfiles, hwritten, rfl, rfl⟩

/-- Where all files are written, each document can be read back. -/
theorem read_of_encode {documents : List Document} {files : List (Text × Bytes)} {directory : Path}
    (hfiles : rendering.encode documents = .ok files)
    (hnodup : (documents.map Document.fileName).Nodup)
    (hwritten : before.writeAll directory files = (after, none)) :
    (∀ file ∈ files, after.read (directory.append [file.1]) = .ok file.2) ∧
      ∀ document ∈ documents, ∃ bytes, Utf8.encode (rendering.content document) = .ok bytes ∧
        after.read (directory.append [document.fileName]) = .ok bytes := by
  obtain ⟨hnames, hcontents⟩ := encode_spec hfiles
  -- The written files have the names of the documents, which are plain and differ.
  have hvalid : ∀ file ∈ files, FileTree.IsFileName file.1 := by
    intro file hfile
    have hname : file.1 ∈ documents.map Document.fileName := by
      rw [← hnames]
      exact List.mem_map_of_mem hfile
    obtain ⟨other, -, hother⟩ := List.mem_map.1 hname
    rw [← hother]
    exact other.isFileName
  rw [← hnames] at hnodup
  have hread := FileTree.read_of_writeAll hvalid hnodup hwritten
  refine ⟨hread, ?_⟩
  intro document hdocument
  obtain ⟨bytes, hmem, hbytes⟩ := hcontents document hdocument
  exact ⟨bytes, hbytes, hread _ hmem⟩

/-- What was written can be read back below the reported directory. -/
theorem holds_of_write (h : rendering.write host library before = (after, .ok report))
    (document : Document) :
    after.Holds (report.target.append [document.fileName]) (rendering.content document) := by
  obtain ⟨files, middle, hfiles, hwritten, htarget, -⟩ := exists_files_of_write h
  obtain ⟨-, hread⟩ := read_of_encode hfiles Document.nodup_fileNames hwritten
  obtain ⟨bytes, hbytes, hholds⟩ := hread document document.mem_all
  rw [htarget]
  exact ⟨bytes, hholds, Utf8.decode_of_encode hbytes⟩

end Rendering

/-! ## Fields as JSON -/

namespace Json

/-- The member of an object with a name. -/
def member? (name : Text) : Json → Option Json
  | .object members => members.lookup name
  | _ => none

/-- The items of an array. -/
def items? : Json → Option (List Json)
  | .array items => some items
  | _ => none

/-- The text of a string. -/
def text? : Json → Option Text
  | .string text => some text
  | _ => none

end Json

/-- The keys that a document lists under its fields, in order. -/
def fieldKeys? (document : Json) : Option (List Text) := do
  let items ← (← document.member? "fields").items?
  items.mapM fun item => do (← item.member? "key").text?

theorem fieldKeys?_fieldsDocument (fields : Register) :
    fieldKeys? (fieldsDocument fields) = some (fields.map Field.key) := by
  have hkeys : (fields.map Field.toJson).mapM
      (fun item => do (← item.member? "key").text?) = some (fields.map Field.key) := by
    induction fields with
    | nil => rfl
    | cons field fields ih =>
      rw [List.map_cons, List.mapM_cons, ih]
      rfl
  exact hkeys

theorem plain_fieldsDocument (fields : Register) : (fieldsDocument fields).Plain := by
  have hmembers : (["key", "type", "label", "default"] : List Text).Nodup := by decide
  have hfield : ∀ field : Field, field.toJson.Plain :=
    fun field => ⟨hmembers, trivial, trivial, trivial, trivial, trivial⟩
  have hfields : Json.PlainItems (fields.map Field.toJson) := by
    induction fields with
    | nil => trivial
    | cons field fields ih => exact ⟨hfield field, ih⟩
  have hnames : (["$schema", "version", "fields"] : List Text).Nodup := by decide
  exact ⟨hnames, trivial, trivial, hfields, trivial⟩

/-- The document of the fields is an object with an array of objects. -/
theorem depth_fieldsDocument_le (fields : Register) : (fieldsDocument fields).depth ≤ 3 := by
  have hfields : Json.depthOf (fields.map Field.toJson) ≤ 1 := by
    rw [Json.depthOf_le_iff]
    intro item hitem
    obtain ⟨field, -, rfl⟩ := List.mem_map.1 hitem
    exact Nat.le_refl 1
  have hmembers : (fieldsDocument fields).depth =
      max 0 (max 0 (max (Json.depthOf (fields.map Field.toJson) + 1) 0)) + 1 := rfl
  rw [hmembers]
  omega

/-- The printed document of the fields can be read on every host. -/
theorem read_print_fieldsDocument (host : Host) (fields : Register) :
    Json.read host (fieldsDocument fields).print = .ok (fieldsDocument fields) :=
  Json.read_print (plain_fieldsDocument fields)
    (Nat.le_trans (depth_fieldsDocument_le fields) host.documents.1)

/-- **The documents agree.** For markup without braces, on every host and whatever library directory
a component is written below: the files of the template and of the fields can be read back, the
latter as JSON, and the keys that it lists are the names of the placeholders in the template, in the
order in which they first come up. No key is listed twice, and their number is the reported one. -/
theorem Rendering.documents_agree {host : Host} {request : Request} {library : Path}
    {before after : FileTree} {report : Report} (hopening : .scalar '\x7b' ∉ request.sourceHtml)
    (hclosing : .scalar '\x7d' ∉ request.sourceHtml)
    (hwrite : (Rendering.ofRequest request).write host library before = (after, .ok report)) :
    report.target = request.target library ∧
      ∃ text printed document keys,
        after.Holds (report.target.append ["index.hbs"]) text ∧
        after.Holds (report.target.append ["fields.json"]) printed ∧
        Json.read host printed = .ok document ∧ fieldKeys? document = some keys ∧
        keys = (placeholdersIn text).eraseDups ∧ keys.Nodup ∧
        report.fieldCount = keys.length := by
  obtain ⟨-, -, -, -, htarget, hcount⟩ := Rendering.exists_files_of_write hwrite
  have htemplate := Rendering.holds_of_write hwrite .template
  have hfields := Rendering.holds_of_write hwrite .fields
  let template := Template.ofTree request.options (Node.parse request.sourceHtml)
  have hkeys : template.fields.map Field.key = (placeholdersIn template.text).eraseDups := by
    rw [Template.map_key_fields, Template.placeholdersIn_text _ hopening hclosing]
  refine ⟨htarget, template.text, (fieldsDocument template.fields).print,
    fieldsDocument template.fields, template.fields.map Field.key, htemplate, hfields,
    read_print_fieldsDocument host _, fieldKeys?_fieldsDocument _, hkeys, ?_, ?_⟩
  · rw [Template.fields_ofTree]
    exact Register.nodup_firsts _
  · rw [List.length_map]
    exact hcount

/-- A component of two buttons that share their class key, of which the second alone has a text. -/
theorem Rendering.documents_agree_links :
    let request : Request :=
      { componentName := some "Card", sourceHtml := "<a class=btn href=/x></a><a class=btn>Go</a>"
        category := none, tags := [], options := {}, description := none }
    .scalar '\x7b' ∉ request.sourceHtml ∧ .scalar '\x7d' ∉ request.sourceHtml ∧
      ∃ after report,
        (Rendering.ofRequest request).write .usual ⟨[], ["library"]⟩ ⟨[], []⟩ =
          (after, .ok report) ∧
        ∃ text printed document keys,
          after.Holds (report.target.append ["index.hbs"]) text ∧
          after.Holds (report.target.append ["fields.json"]) printed ∧
          Json.read Host.usual printed = .ok document ∧ fieldKeys? document = some keys ∧
          keys = (placeholdersIn text).eraseDups ∧ keys.Nodup ∧
          report.fieldCount = keys.length := by
  intro request
  have hopening : .scalar '\x7b' ∉ request.sourceHtml := by decide +kernel
  have hclosing : .scalar '\x7d' ∉ request.sourceHtml := by decide +kernel
  have hsucceeds : ((Rendering.ofRequest request).write .usual ⟨[], ["library"]⟩
      ⟨[], []⟩).2.toBool = true := by
    decide +kernel
  refine ⟨hopening, hclosing, ?_⟩
  cases hwrite : (Rendering.ofRequest request).write .usual ⟨[], ["library"]⟩ ⟨[], []⟩ with
  | mk after outcome =>
    rw [hwrite] at hsucceeds
    cases outcome with
    | error fault => cases hsucceeds
    | ok report =>
      exact ⟨after, report, rfl, (Rendering.documents_agree hopening hclosing hwrite).2⟩

end Stencil
