import FolderWatch.Settings
import FolderWatch.Json.Reader

/-!
The JSON form of settings. Whatever is left out has its default.
-/

namespace FolderWatch

namespace FirstScan

def toJson (mode : FirstScan) : List Char := Json.quote mode.name

def readJson : Json.Reader FirstScan := Json.readName ofName?

end FirstScan

namespace PollSettings

def toJson (settings : PollSettings) : List Char :=
  "\x7b\"delay_ms\":".toList ++ Json.natural settings.delay.toNat ++
    ",\"stop_timeout_secs\":".toList ++ Json.natural settings.stopTimeout.toNat ++
    ",\"initial_scan\":".toList ++ settings.firstScan.toJson ++ ['}']

structure Fields where
  delay : Option UInt64 := none
  stopTimeout : Option UInt64 := none
  firstScan : Option FirstScan := none

namespace Fields

def readMember (fields : Fields) (name : String) : Json.Reader Fields := fun text => do
  if name = "delay_ms" then
    let (delay, rest) ← Json.readField fields.delay Json.readUInt64 text
    return ({ fields with delay }, rest)
  else if name = "stop_timeout_secs" then
    let (stopTimeout, rest) ← Json.readField fields.stopTimeout Json.readUInt64 text
    return ({ fields with stopTimeout }, rest)
  else if name = "initial_scan" then
    let (firstScan, rest) ← Json.readField fields.firstScan FirstScan.readJson text
    return ({ fields with firstScan }, rest)
  else Json.skipMember fields text

def settings (fields : Fields) : PollSettings :=
  let defaults : PollSettings := {}
  ⟨fields.delay.getD defaults.delay, fields.stopTimeout.getD defaults.stopTimeout,
    fields.firstScan.getD defaults.firstScan⟩

end Fields

def readElements : Json.Reader PollSettings := fun text => do
  let defaults : PollSettings := {}
  let (delay, text) ← Json.readElementOr true defaults.delay Json.readUInt64 text
  let (stopTimeout, text) ← Json.readElementOr false defaults.stopTimeout Json.readUInt64 text
  let (firstScan, text) ← Json.readElementOr false defaults.firstScan FirstScan.readJson text
  return (⟨delay, stopTimeout, firstScan⟩, text)

def readJson : Json.Reader PollSettings :=
  Json.readStructure readElements {} Fields.readMember fun fields => .ok fields.settings

end PollSettings

namespace Settings

def boolJson (value : Bool) : List Char :=
  if value then "true".toList else "false".toList

def deliveryJson (batched : Bool) : List Char :=
  "\x7b\"batch_events\":".toList ++ boolJson batched ++ ['}']

def toJson (settings : Settings) : List Char :=
  "\x7b\"monitor\":".toList ++ settings.poll.toJson ++ ",\"output\":".toList ++
    deliveryJson settings.batched ++ ['}']

def readDeliveryMember (batched : Option Bool) (name : String) : Json.Reader (Option Bool) :=
  fun text =>
    if name = "batch_events" then Json.readField batched Json.readBool text
    else Json.skipMember batched text

def readDelivery : Json.Reader Bool :=
  Json.readStructure (Json.readElementOr true true Json.readBool) none readDeliveryMember
    fun batched => .ok (batched.getD true)

structure Fields where
  poll : Option PollSettings := none
  batched : Option Bool := none

def Fields.readMember (fields : Fields) (name : String) : Json.Reader Fields := fun text => do
  if name = "monitor" then
    let (poll, rest) ← Json.readField fields.poll PollSettings.readJson text
    return ({ fields with poll }, rest)
  else if name = "output" then
    let (batched, rest) ← Json.readField fields.batched readDelivery text
    return ({ fields with batched }, rest)
  else Json.skipMember fields text

def readElements : Json.Reader Settings := fun text => do
  let (poll, text) ← Json.readElementOr true {} PollSettings.readJson text
  let (batched, text) ← Json.readElementOr false true readDelivery text
  return (⟨poll, batched⟩, text)

def readJson : Json.Reader Settings :=
  Json.readStructure readElements {} Fields.readMember fun fields =>
    .ok ⟨fields.poll.getD {}, fields.batched.getD true⟩

end Settings

end FolderWatch
