/-
  WebSocket messages.

  A data frame is a fragment of a message (RFC 6455 section 5.4): Text and Binary
  frames begin one, Continuation frames go on with the one that is open.
-/
import KernelHttp.Lib.Fragments
import KernelHttp.WebSocket.Frame

namespace KernelHttp.WebSocket

open Fragments

inductive MessageKind where
  | text
  | binary
deriving DecidableEq, Repr

/-- The opcode of the frame that begins a message, and of one that goes on with it. -/
def fragmentOpcode : Option MessageKind → WebSocketOpcode
  | some .text => .text
  | some .binary => .binary
  | none => .continuation

def dataFragment (f : Frame) : Option (Fragment MessageKind UInt8) :=
  match f.opcode with
  | .text => some ⟨some .text, f.fin, f.payload⟩
  | .binary => some ⟨some .binary, f.fin, f.payload⟩
  | .continuation => some ⟨none, f.fin, f.payload⟩
  | _ => none

/-- The fragment whose frame a buffer begins with. -/
def frameFragment (frame : Bytes) : Option (Fragment MessageKind UInt8) :=
  (readFrame frame).bind fun f => dataFragment f.1

/-- The fragments of a row of buffers with a frame each. -/
def wireFragments (handed : List Bytes) : List (Fragment MessageKind UInt8) :=
  handed.filterMap frameFragment

/-- A buffer that holds the frame of a fragment, and nothing else. -/
def Carries (frame : Bytes) (f : Fragment MessageKind UInt8) : Prop :=
  readFrame frame = some (⟨f.final, fragmentOpcode f.kind, f.payload⟩, [])

theorem dataFragment_fragmentOpcode (f : Fragment MessageKind UInt8) :
    dataFragment ⟨f.final, fragmentOpcode f.kind, f.payload⟩ = some f := by
  obtain ⟨kind, final, payload⟩ := f
  cases kind with
  | none => rfl
  | some k => cases k <;> rfl

theorem wireFragments_append (a b : List Bytes) :
    wireFragments (a ++ b) = wireFragments a ++ wireFragments b := List.filterMap_append

theorem wireFragments_carries {frames : List Bytes} {fs : List (Fragment MessageKind UInt8)}
    (h : List.Forall₂ Carries frames fs) : wireFragments frames = fs := by
  induction h with
  | nil => rfl
  | @cons frame f frames fs hf _ ih =>
    have hs : frameFragment frame = some f := by
      rw [frameFragment, hf, Option.bind_some, dataFragment_fragmentOpcode]
    rw [wireFragments, List.filterMap_cons_some hs]
    exact congrArg _ ih

theorem wireFragments_control {frame : Bytes} {f : Frame} {rest : Bytes}
    (h : readFrame frame = some (f, rest)) (hc : isControlOpcode f.opcode = true) :
    wireFragments [frame] = [] := by
  have hn : dataFragment f = none := by
    obtain ⟨fin, opcode, payload⟩ := f
    cases opcode <;> first | rfl | cases hc
  have hs : frameFragment frame = none := by rw [frameFragment, h, Option.bind_some, hn]
  rw [wireFragments, List.filterMap_cons_none hs, List.filterMap_nil]

end KernelHttp.WebSocket
