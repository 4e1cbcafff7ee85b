import FolderWatch.Change.Json
import FolderWatch.Proofs.Json.Snapshots
import FolderWatch.Settings.Json

/-!
Reading undoes writing for every type that has a JSON form, and only a path that is not text keeps a
value from being written.
-/

namespace FolderWatch

open Json

namespace FirstScan

theorem reads_json (mode : FirstScan) : Reads readJson mode.toJson mode :=
  readName_quote (by cases mode <;> decide)

end FirstScan

namespace PollSettings

theorem toJson_eq (settings : PollSettings) :
    settings.toJson = object [member "delay_ms" (natural settings.delay.toNat),
      member "stop_timeout_secs" (natural settings.stopTimeout.toNat),
      member "initial_scan" settings.firstScan.toJson] := by
  unfold toJson
  generalize natural settings.delay.toNat = delay, natural settings.stopTimeout.toNat = stopTimeout,
    settings.firstScan.toJson = firstScan
  simp [object, member, quote, quoteChars, quoteChar]

theorem reads_json (settings : PollSettings) : Reads readJson settings.toJson settings := by
  have delayRead := (readUInt64_natural settings.delay).field fun delay => ({ delay } : Fields)
  have stopRead := (readUInt64_natural settings.stopTimeout).field
    fun stopTimeout => ({ delay := some settings.delay, stopTimeout } : Fields)
  have scanRead := (FirstScan.reads_json settings.firstScan).field fun firstScan =>
    ({ delay := some settings.delay, stopTimeout := some settings.stopTimeout, firstScan } : Fields)
  have takes : Takes Fields.readMember {}
      [member "delay_ms" (natural settings.delay.toNat),
        member "stop_timeout_secs" (natural settings.stopTimeout.toNat),
        member "initial_scan" settings.firstScan.toJson]
      ⟨some settings.delay, some settings.stopTimeout, some settings.firstScan⟩ :=
    .cons delayRead (.cons stopRead (.cons scanRead (.nil _)))
  rw [toJson_eq]
  exact readStructure_object takes rfl

end PollSettings

namespace Settings

theorem reads_bool (value : Bool) : Reads readBool (boolJson value) value := by
  intro rest _
  cases value <;> rfl

theorem deliveryJson_eq (batched : Bool) :
    deliveryJson batched = object [member "batch_events" (boolJson batched)] := by
  unfold deliveryJson
  generalize boolJson batched = batched
  simp [object, member, quote, quoteChars, quoteChar]

theorem reads_delivery (batched : Bool) : Reads readDelivery (deliveryJson batched) batched := by
  have takes : Takes readDeliveryMember none [member "batch_events" (boolJson batched)]
      (some batched) := .cons (readField_none (reads_bool batched)) (.nil _)
  rw [deliveryJson_eq]
  exact readStructure_object takes rfl

theorem toJson_eq (settings : Settings) :
    settings.toJson = object [member "monitor" settings.poll.toJson,
      member "output" (deliveryJson settings.batched)] := by
  unfold toJson
  generalize settings.poll.toJson = poll, deliveryJson settings.batched = batched
  simp [object, member, quote, quoteChars, quoteChar]

theorem reads_json (settings : Settings) : Reads readJson settings.toJson settings := by
  have pollRead := settings.poll.reads_json.field fun poll => ({ poll } : Fields)
  have deliveryRead := (reads_delivery settings.batched).field
    fun batched => ({ poll := some settings.poll, batched } : Fields)
  have takes : Takes Fields.readMember {}
      [member "monitor" settings.poll.toJson, member "output" (deliveryJson settings.batched)]
      ⟨some settings.poll, some settings.batched⟩ :=
    .cons pollRead (.cons deliveryRead (.nil _))
  rw [toJson_eq]
  exact readStructure_object takes rfl

end Settings

namespace Json

/-- A type's JSON form: the values that can be written are those that the predicate names, what is
written reads back as it was and is written again the same, and what was read from any text at all
can be written and is then read again. -/
structure RoundTrips {α : Type} (write? : α → Option (List Char)) (read : Reader α)
    (writable : α → Prop) : Prop where
  written : ∀ value, (write? value).isSome ↔ writable value
  readBack : ∀ value text, write? value = some text → readAll read (String.ofList text) = .ok value
  writtenAgain : ∀ value text, write? value = some text →
    ∀ again, readAll read (String.ofList text) = .ok again → write? again = some text
  readAgain : ∀ text value, readAll read text = .ok value →
    ∃ again, write? value = some again ∧ readAll read (String.ofList again) = .ok value

variable {α : Type} {write? : α → Option (List Char)} {read : Reader α} {writable : α → Prop}

theorem RoundTrips.of_reads (written : ∀ value, (write? value).isSome ↔ writable value)
    (reads : ∀ value text, write? value = some text → Reads read text value)
    (yields : Yields read writable) : RoundTrips write? read writable where
  written := written
  readBack := fun value text made => (reads value text made).readAll
  writtenAgain := by
    intro value text made again taken
    rw [(reads value text made).readAll] at taken
    cases taken
    exact made
  readAgain := by
    intro text value taken
    obtain ⟨⟨found, left⟩, inner, ended⟩ := bind_eq_ok.1 taken
    have fits := yields _ _ _ inner
    dsimp only at ended
    split at ended <;> cases ended
    obtain ⟨again, made⟩ := Option.isSome_iff_exists.mp ((written value).mpr fits)
    exact ⟨again, made, (reads value again made).readAll⟩

theorem RoundTrips.of_total {write : α → List Char}
    (reads : ∀ value, Reads read (write value) value) :
    RoundTrips (fun value => some (write value)) read fun _ => True := by
  refine .of_reads (fun _ => by simp) ?_ fun _ _ _ _ => trivial
  intro value text made
  cases made
  exact reads value

/-- Every type that has a JSON form. -/
theorem json_round_trips :
    RoundTrips FileRecord.toJson? FileRecord.readJson FileRecord.IsText ∧
      RoundTrips Change.toJson? Change.readJson Change.IsText ∧
      RoundTrips Snapshot.toJson? Snapshot.readJson Snapshot.IsText ∧
      RoundTrips (fun kind => some (ChangeKind.toJson kind)) ChangeKind.readJson (fun _ => True) ∧
      RoundTrips (fun mode => some (FirstScan.toJson mode)) FirstScan.readJson (fun _ => True) ∧
      RoundTrips (fun settings => some (PollSettings.toJson settings)) PollSettings.readJson
        (fun _ => True) ∧
      RoundTrips (fun batched => some (Settings.deliveryJson batched)) Settings.readDelivery
        (fun _ => True) ∧
      RoundTrips (fun settings => some (Settings.toJson settings)) Settings.readJson
        (fun _ => True) := by
  refine ⟨?_, ?_, ?_, ?_, ?_, ?_, ?_, ?_⟩
  · exact .of_reads (fun _ => FileRecord.isSome_toJson?) (fun _ _ => FileRecord.reads_json)
      FileRecord.yields_json
  · exact .of_reads (fun _ => Change.isSome_toJson?) (fun _ _ => Change.reads_json)
      Change.yields_json
  · exact .of_reads (fun _ => Snapshot.isSome_toJson?) (fun _ _ => Snapshot.reads_json)
      Snapshot.yields_json
  · exact .of_total ChangeKind.reads_json
  · exact .of_total FirstScan.reads_json
  · exact .of_total PollSettings.reads_json
  · exact .of_total Settings.reads_delivery
  · exact .of_total Settings.reads_json

/-- A quote, a control character and both integers at their ends. -/
example : FileRecord.toJson? ⟨.ofString "a\"\n", 18446744073709551615, -9223372036854775808⟩ =
    some ("\x7b\"path\":\"a\\\"\\n\",\"length\":18446744073709551615," ++
      "\"last_modified\":-9223372036854775808\x7d").toList := by
  decide +kernel

end Json

end FolderWatch
