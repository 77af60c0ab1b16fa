import AgentRun.Error
import AgentRun.Model.Chunk
import AgentRun.Model.Request

/-!
# Models

A model answers a request with a stream of chunks. Here a model is what it answers to each request
after the requests before it, together with the times this takes: an answer may be refused, break
off, stop giving chunks or bring its client down. All models there are, with all their timings, are
values of `Model`.
-/

namespace AgentRun

/-- How a stream of chunks ends. -/
inductive StreamEnd where
  /-- In good order. -/
  | done
  /-- With a failure. -/
  | failed (error : GatewayError)
  /-- Never: nothing more comes. -/
  | silent
  /-- The client of the model breaks down. -/
  | panicked (message : String)
  deriving DecidableEq, Repr

/-- A stream of chunks, with the time in milliseconds that passes before each of them. -/
structure ChunkStream where
  chunks : List (Nat × Chunk)
  /-- The time that passes before the end. -/
  endsAfter : Nat
  ending : StreamEnd
  deriving DecidableEq, Repr

/-- A stream whose chunks are all there at once. -/
def ChunkStream.immediate (chunks : List Chunk) (ending : StreamEnd) : ChunkStream :=
  ⟨chunks.map fun c => (0, c), 0, ending⟩

/-- How a request is taken. -/
inductive Opening where
  /-- It is answered. -/
  | stream (chunks : ChunkStream)
  /-- It fails. -/
  | refused (error : GatewayError)
  /-- The client of the model breaks down. -/
  | panicked (message : String)
  deriving DecidableEq, Repr

/-- The answer to a request. -/
structure Reply where
  /-- The time in milliseconds until the request is taken, `none` if it never is. -/
  after : Option Nat
  /-- How it is taken. -/
  opening : Opening
  deriving DecidableEq, Repr

/-- A model: its answer to a request, given the requests that it had before. -/
structure Model where
  /-- The answer. -/
  reply : List ModelRequest → ModelRequest → Reply

end AgentRun
