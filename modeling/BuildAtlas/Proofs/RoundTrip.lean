import BuildAtlas.CommandLine
import BuildAtlas.Proofs.Json.Record

/-!
# BuildAtlas.Proofs.RoundTrip

Decoding the JSON text of a project, a selection or an editor's document gives it back.

The codecs of all documents are lawful, because they are built by lists, maps, enumerations and
records from lawful ones. What is left for each document is that its fields have different names and
that its values are put back where they came from.
-/

namespace BuildAtlas

open Json (Codec)
open Json.Codec (KeyText.text_lawful list_lawful map_lawful enumeration_lawful record_lawful)

/-- The text of every value is decoded to that value: in both layouts, and as a run prints it. -/
def Json.Codec.RoundTrips {α : Type} (codec : Codec α) : Prop :=
  ∀ a, (∀ layout, codec.decode (codec.encode layout a) = .ok a) ∧
    codec.decode (CommandLine.printed codec a) = .ok a

theorem Json.Codec.Lawful.roundTrips {α : Type} {codec : Codec α} (h : codec.Lawful) :
    codec.RoundTrips := by
  intro a
  refine ⟨fun layout => ?_, ?_⟩
  · have hdecode := h.decode_encode layout a "" (by simp)
    rwa [String.append_empty] at hdecode
  · exact h.decode_encode .pretty a "\n" (by simp [Json.Reader.isBlank])

/-! ### Names -/

@[simp] theorem FileGroup.keyText_lawful : keyText.Lawful := by
  intro group
  cases group <;> decide

theorem TargetKind.names_lawful : (Codec.KeyText.ofNames all name).Lawful := by
  intro kind
  cases kind <;> decide

theorem FileGroup.codec_lawful : codec.Lawful :=
  enumeration_lawful keyText_lawful

@[simp] theorem TargetKind.codec_lawful : codec.Lawful :=
  enumeration_lawful names_lawful

/-! ### Parts of projects -/

theorem CompileFlags.codec_lawful : codec.Lawful :=
  record_lawful (by simp) fun _ => rfl

theorem Selection.codec_lawful : codec.Lawful :=
  record_lawful (by simp) fun _ => rfl

@[simp] theorem Project.perConfiguration_lawful {α : Type} {codec : Codec α} (h : codec.Lawful) :
    (perConfiguration codec).Lawful :=
  map_lawful KeyText.text_lawful h

@[simp] theorem Project.codec_lawful : codec.Lawful :=
  record_lawful (by simp) fun _ => rfl

/-! ### Documents of the editor -/

@[simp] theorem BuildTask.codec_lawful : codec.Lawful :=
  record_lawful (by simp) fun _ => rfl

@[simp] theorem LaunchEntry.codec_lawful : codec.Lawful :=
  record_lawful (by simp) fun _ => rfl

@[simp] theorem CompilerProperties.codec_lawful : codec.Lawful :=
  record_lawful (by simp) fun _ => rfl

theorem TasksDocument.codec_lawful : codec.Lawful :=
  record_lawful (by simp) fun _ => rfl

theorem LaunchDocument.codec_lawful : codec.Lawful :=
  record_lawful (by simp) fun _ => rfl

theorem PropertiesDocument.codec_lawful : codec.Lawful :=
  record_lawful (by simp) fun _ => rfl

/-! ### All documents -/

/-- Nothing that is written as JSON is lost: whatever the texts of a project, of a selection or of a
document hold, and whatever changes of its files a project went through. -/
theorem documents_roundTrip :
    Project.codec.RoundTrips ∧ (Codec.list Project.codec).RoundTrips ∧
    Selection.codec.RoundTrips ∧ CompileFlags.codec.RoundTrips ∧
    TargetKind.codec.RoundTrips ∧ FileGroup.codec.RoundTrips ∧
    TasksDocument.codec.RoundTrips ∧ LaunchDocument.codec.RoundTrips ∧
    PropertiesDocument.codec.RoundTrips :=
  ⟨Project.codec_lawful.roundTrips, (list_lawful Project.codec_lawful).roundTrips,
    Selection.codec_lawful.roundTrips, CompileFlags.codec_lawful.roundTrips,
    TargetKind.codec_lawful.roundTrips, FileGroup.codec_lawful.roundTrips,
    TasksDocument.codec_lawful.roundTrips, LaunchDocument.codec_lawful.roundTrips,
    PropertiesDocument.codec_lawful.roundTrips⟩

end BuildAtlas
