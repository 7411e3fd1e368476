/-
  The HTTP/2 stream object (`Http2Stream.cpp`,
  RFC 9113 Section 5.1).

  The windows are signed; a comparison of a length with a window casts the
  window to `SIZE_T`, which makes a negative window large (`castSizeT`).
-/
import KernelHttp.Http2.Frame

namespace KernelHttp.Http2

inductive Http2StreamState where
  | idle
  | open_
  | halfClosedLocal
  | halfClosedRemote
  | closed
deriving DecidableEq

structure Http2Stream where
  streamId : ℕ := 0
  state : Http2StreamState := .idle
  localWindow : ℤ := http2InitialWindowSize
  remoteWindow : ℤ := http2InitialWindowSize
deriving DecidableEq

/-- `static_cast<SIZE_T>` of a `LONG`. -/
def castSizeT (window : ℤ) : ℕ := (window % 2 ^ 64).toNat

theorem castSizeT_of_nonneg {window : ℤ} (h : 0 ≤ window) (hle : window ≤ http2MaxWindowSize) :
    castSizeT window = window.toNat := by
  unfold castSizeT
  rw [Int.emod_eq_of_lt h (by simp only [http2MaxWindowSize] at hle; omega)]

/-- The test of `SendData` and `ReceiveData`: the length does not fit into the
    window. -/
def exceedsWindow (length : ℕ) (window : ℤ) : Bool :=
  (length != 0 && window ≤ 0) || length > castSizeT window

namespace Http2Stream

/-- `Http2Stream::Initialize`. -/
def initializeStream (streamId localWindow remoteWindow : ℕ) : Http2Stream :=
  ⟨streamId, .idle, localWindow, remoteWindow⟩

def sendHeaders (s : Http2Stream) (endStream : Bool) : NTSTATUS × Http2Stream :=
  match s.state with
  | .idle => (statusSuccess, { s with state := if endStream then .halfClosedLocal else .open_ })
  | .open_ => (statusSuccess, if endStream then { s with state := .halfClosedLocal } else s)
  | .halfClosedRemote => (statusSuccess, if endStream then { s with state := .closed } else s)
  | _ => (statusInvalidDeviceState, s)

def sendData (s : Http2Stream) (length : ℕ) (endStream : Bool) : NTSTATUS × Http2Stream :=
  if s.state ≠ .open_ ∧ s.state ≠ .halfClosedRemote then (statusInvalidDeviceState, s)
  else if exceedsWindow length s.remoteWindow then (statusBufferTooSmall, s)
  else
    let state := if endStream then
        (if s.state = .halfClosedRemote then .closed else .halfClosedLocal)
      else s.state
    (statusSuccess, { s with remoteWindow := s.remoteWindow - length, state })

def receiveHeaders (s : Http2Stream) (endStream : Bool) : NTSTATUS × Http2Stream :=
  match s.state with
  | .idle => (statusSuccess, { s with state := if endStream then .halfClosedRemote else .open_ })
  | .open_ => (statusSuccess, if endStream then { s with state := .halfClosedRemote } else s)
  | .halfClosedLocal => (statusSuccess, if endStream then { s with state := .closed } else s)
  | _ => (statusInvalidDeviceState, s)

def receiveData (s : Http2Stream) (length : ℕ) (endStream : Bool) : NTSTATUS × Http2Stream :=
  if s.state ≠ .open_ ∧ s.state ≠ .halfClosedLocal then (statusInvalidDeviceState, s)
  else if exceedsWindow length s.localWindow then (statusInvalidNetworkResponse, s)
  else
    let state := if endStream then
        (if s.state = .halfClosedLocal then .closed else .halfClosedRemote)
      else s.state
    (statusSuccess, { s with localWindow := s.localWindow - length, state })

/-- The test of `IncreaseRemoteWindow` and `IncreaseLocalWindow`. -/
def increaseWindow (window : ℤ) (increment : ℕ) : NTSTATUS × ℤ :=
  if increment = 0 then (statusInvalidParameter, window)
  else if window > (http2MaxWindowSize : ℤ) - increment then (statusInvalidNetworkResponse, window)
  else (statusSuccess, window + increment)

def increaseRemoteWindow (s : Http2Stream) (increment : ℕ) : NTSTATUS × Http2Stream :=
  let (status, remoteWindow) := increaseWindow s.remoteWindow increment
  (status, { s with remoteWindow })

def increaseLocalWindow (s : Http2Stream) (increment : ℕ) : NTSTATUS × Http2Stream :=
  let (status, localWindow) := increaseWindow s.localWindow increment
  (status, { s with localWindow })

def adjustRemoteWindow (s : Http2Stream) (delta : ℤ) : NTSTATUS × Http2Stream :=
  if s.remoteWindow + delta > http2MaxWindowSize ∨
      s.remoteWindow + delta < -(http2MaxWindowSize : ℤ) then (statusInvalidNetworkResponse, s)
  else (statusSuccess, { s with remoteWindow := s.remoteWindow + delta })

def reset (_s : Http2Stream) : Http2Stream := {}

/-! ## What a call changes -/

variable (s : Http2Stream)

@[simp] theorem sendHeaders_streamId (b : Bool) : (s.sendHeaders b).2.streamId = s.streamId := by
  unfold sendHeaders; split <;> (try split) <;> rfl

@[simp] theorem sendHeaders_remoteWindow (b : Bool) :
    (s.sendHeaders b).2.remoteWindow = s.remoteWindow := by
  unfold sendHeaders; split <;> (try split) <;> rfl

@[simp] theorem sendData_streamId (n : ℕ) (b : Bool) :
    (s.sendData n b).2.streamId = s.streamId := by
  unfold sendData; split_ifs <;> rfl

/-- `SendData` that succeeds debits the window. -/
theorem sendData_success {n : ℕ} {b : Bool} (h : ntSuccess (s.sendData n b).1 = true) :
    (s.sendData n b).1 = statusSuccess ∧ exceedsWindow n s.remoteWindow = false ∧
      (s.sendData n b).2.remoteWindow = s.remoteWindow - n := by
  unfold sendData at h ⊢
  by_cases h1 : s.state ≠ .open_ ∧ s.state ≠ .halfClosedRemote
  · rw [if_pos h1] at h
    simp at h
  · by_cases h2 : exceedsWindow n s.remoteWindow
    · rw [if_neg h1, if_pos h2] at h
      simp at h
    · rw [if_neg h1, if_neg h2]
      exact ⟨rfl, by simpa using h2, rfl⟩

@[simp] theorem receiveHeaders_streamId (b : Bool) :
    (s.receiveHeaders b).2.streamId = s.streamId := by
  unfold receiveHeaders; split <;> (try split) <;> rfl

@[simp] theorem receiveHeaders_remoteWindow (b : Bool) :
    (s.receiveHeaders b).2.remoteWindow = s.remoteWindow := by
  unfold receiveHeaders; split <;> (try split) <;> rfl

@[simp] theorem receiveData_streamId (n : ℕ) (b : Bool) :
    (s.receiveData n b).2.streamId = s.streamId := by
  unfold receiveData; split_ifs <;> rfl

@[simp] theorem receiveData_remoteWindow (n : ℕ) (b : Bool) :
    (s.receiveData n b).2.remoteWindow = s.remoteWindow := by
  unfold receiveData; split_ifs <;> rfl

@[simp] theorem increaseRemoteWindow_streamId (n : ℕ) :
    (s.increaseRemoteWindow n).2.streamId = s.streamId := rfl

@[simp] theorem increaseLocalWindow_streamId (n : ℕ) :
    (s.increaseLocalWindow n).2.streamId = s.streamId := rfl

@[simp] theorem increaseLocalWindow_remoteWindow (n : ℕ) :
    (s.increaseLocalWindow n).2.remoteWindow = s.remoteWindow := rfl

theorem adjustRemoteWindow_success {d : ℤ} (h : ntSuccess (s.adjustRemoteWindow d).1 = true) :
    (s.adjustRemoteWindow d).2 = { s with remoteWindow := s.remoteWindow + d } ∧
      -(http2MaxWindowSize : ℤ) ≤ s.remoteWindow + d ∧ s.remoteWindow + d ≤ http2MaxWindowSize := by
  unfold adjustRemoteWindow at h ⊢
  by_cases hr : s.remoteWindow + d > http2MaxWindowSize ∨
      s.remoteWindow + d < -(http2MaxWindowSize : ℤ)
  · rw [if_pos hr] at h
    cases h
  · rw [if_neg hr]
    exact ⟨rfl, by omega, by omega⟩

end Http2Stream

end KernelHttp.Http2
