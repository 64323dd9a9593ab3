import MetricRelay.Message.Convert
import MetricRelay.Report
import MetricRelay.Store.Basic

/-!
# The service

The service takes messages in and answers questions, over any store.  A list of updates is stored
only if every message of it can be understood.  What goes wrong while a message is understood is
the client's fault, and what goes wrong in the store is not.

Main definitions:

- `Service`: how messages are signed, and where metrics are kept.
- `Service.update`, `Service.lookup`, `Service.lookupMessage`, `Service.report`, `Service.ping`.
-/

namespace MetricRelay

/-- A failure to understand a message, which is always the client's fault. -/
def Failure.asConversion (e : Failure) : Failure :=
  match e.fault with
  | .badRequest | .notImplemented => e
  | _ => .badRequest e.message

/-- A failure of a store, which is never the client's fault; only a missing metric is none. -/
def Failure.asStorage (e : Failure) : Failure :=
  match e with
  | storage _ | notFound .. => e
  | e => .storage e.message

/-- A failure to answer. -/
def Failure.asEncoding (e : Failure) : Failure :=
  .internal ("encode response failed: " ++ e.message)

/-- How messages are signed, and where metrics are kept. -/
structure Service (σ : Type) where
  signer : Signer
  store : σ

namespace Service

variable {σ : Type} [Storage σ]

/-- Take updates in; each answer says what its metric is right after its update. -/
def update (s : Service σ) (host : Host) (messages : List Message) :
    Outcome (List Message) × Service σ × Host :=
  match (s.signer.fromMessages messages).mapError Failure.asConversion with
  | .error e => (.error e, s, host)
  | .ok metrics =>
    let (hs, host) := host.allocAll metrics
    let (result, store, host) := Storage.add s.store host hs
    let s := { s with store := store }
    match result with
    | .error e => (.error e.asStorage, s, host)
    | .ok answers =>
      ((s.signer.toMessages (host.getAll answers)).mapError Failure.asEncoding, s, host)

/-- A handle to the metric that a message asks about. -/
def lookup (s : Service σ) (host : Host) (query : Message) : Outcome Handle × Host :=
  match query.identity.mapError Failure.asConversion with
  | .error e => (.error e, host)
  | .ok key =>
    let (result, host) := Storage.get s.store host key
    (result.mapError Failure.asStorage, host)

/-- The message that answers a question. -/
def lookupMessage (s : Service σ) (host : Host) (query : Message) : Outcome Message × Host :=
  match s.lookup host query with
  | (.error e, host) => (.error e, host)
  | (.ok h, host) =>
    ((s.signer.toMessage (host.heap.get h)).mapError Failure.asEncoding, host)

/-- The page that shows the content of the store. -/
def report (s : Service σ) (host : Host) : Outcome String × Host :=
  let (result, host) := Storage.snapshot s.store host
  ((result.mapError Failure.asStorage).map Report.render, host)

/-- Look whether the store works. -/
def ping (s : Service σ) (host : Host) : Outcome Unit :=
  (Storage.ping s.store host).mapError Failure.asStorage

end Service

end MetricRelay
