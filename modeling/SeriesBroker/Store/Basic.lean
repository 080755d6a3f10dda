import SeriesBroker.Store.Envelope
import SeriesBroker.Store.Error

/-! # The store

    A store is known by its answers. What is asked of it is kept beside every result, so that
    it can be said how often and with what a computation turns to the store.

    This module also reads an answer that came over HTTP. An error in the envelope counts
    before the status, and only a successful answer that is no envelope is called undecodable.
-/

namespace SeriesBroker

/-- A query that was sent to a database. -/
structure Call where
  database : String
  query : String
  deriving DecidableEq

structure Store where
  /-- The answer to a query. -/
  answer : Call → Except StoreError Envelope
  /-- Whether it answers at all. -/
  reachable : Bool

/-- A result, with the calls that were made for it. -/
structure Exchange (α : Type) where
  result : α
  calls : List Call

/-- A result that took no call. -/
def Exchange.silent {α : Type} (result : α) : Exchange α := ⟨result, []⟩

/-- Send one query. -/
def Store.execute (s : Store) (call : Call) : Exchange (Except StoreError Envelope) :=
  ⟨s.answer call, [call]⟩

/-! ## Answers over HTTP -/

/-- Whether a byte is a space, a tab, a line feed, a form feed or a return. -/
def isSpaceByte (byte : UInt8) : Bool :=
  byte == 0x20 || byte == 0x09 || byte == 0x0a || byte == 0x0c || byte == 0x0d

/-- The error of an answer that is no envelope. -/
def undecodedAnswer (status : Nat) (body : List UInt8) (fault : Json.DecodeError) : StoreError :=
  .answer <|
    if Http.isSuccess status then .undecodable fault
    else .failed status (Text.trim (Text.lossyText body))

/-- The error that a store reports in its envelope. -/
def reportedError (text : String) : StoreError :=
  if Text.occursIn "not found".toList text.toList then .notFound text
  else .answer (.reported text)

/-- The envelope of an answer with a status and a body. -/
def decodeAnswer [Json.FloatReader] (status : Nat) (body : List UInt8) :
    Except StoreError Envelope :=
  if body.all isSpaceByte then .error .nullResponse
  else
    match Json.decodeBytes (Json.readOptional Envelope.read) body with
    | .error fault => .error (undecodedAnswer status body fault)
    | .ok none => .error .nullResponse
    | .ok (some envelope) =>
      match envelope.firstError? with
      | some text => .error (reportedError text)
      | none =>
        if Http.isSuccess status then .ok envelope
        else .error (.answer (.unexpectedStatus status))

end SeriesBroker
