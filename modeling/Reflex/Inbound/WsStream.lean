import Reflex.Lib.PolledStream
import Reflex.Outbound.ClientHeader

namespace Reflex.Inbound.Ws

open RustStd PolledStream

/-!
# Inbound — reading a VLESS stream over WebSocket

`WsStream::poll_read` of `inbound/vless_server.rs`: a binary message goes into the caller's buffer as
far as there is room, and the rest of it nowhere.  The WebSocket streams of the outbounds
(`TrojanWsStream` of `outbound/trojan.rs`, `WsRawStream` of `outbound/vmess/mod.rs`) keep the rest for
the next read.

* `intact_iff` — the reads return the payloads of the messages exactly if each message is read into a
  buffer that it fits into;
* `buffered_intact` — with a buffer for the rest they always do;
* `not_intact_byte` — and not where the first message is read byte by byte, as the header is.
-/

variable {ε : Type}

/-- What `poll_next` of the WebSocket finds; at the end of a list of these the connection is closed. -/
inductive WsEvent (ε : Type) where
  | pending
  | binary (data : Bytes)
  | close
  | other
  | error (e : ε)
  deriving DecidableEq, Repr

/-- The payloads of the binary messages. -/
def payload : List (WsEvent ε) → Bytes
  | [] => []
  | .binary data :: es => data ++ payload es
  | _ :: es => payload es

/-- The reads of a caller with the given room in its buffer each time: the bytes that are returned,
    and the state behind them. -/
def readAll {σ : Type} (poll : Nat → σ → Poll ε × σ) : List Nat → σ → Bytes × σ
  | [], s => ([], s)
  | cap :: caps, s =>
      let (bs, t) := readAll poll caps (poll cap s).2
      ((poll cap s).1.bytes ++ bs, t)

/-! ### The inbound -/

/-- `WsStream::poll_read` of the VLESS inbound, into a buffer with room for `cap` bytes. -/
def WsStream.pollRead (cap : Nat) : List (WsEvent ε) → Poll ε × List (WsEvent ε)
  | [] => (.ready [], [])
  | .pending :: es => (.pending, es)
  | .binary data :: es => (.ready (data.take (min data.length cap)), es)
  | .error e :: es => (.error e, es)
  | .close :: es => pollRead cap es
  | .other :: es => pollRead cap es

/-- What the reads return and what is still to come are the payloads of the messages. -/
def Intact (caps : List Nat) (es : List (WsEvent ε)) : Prop :=
  (readAll WsStream.pollRead caps es).1 ++ payload (readAll WsStream.pollRead caps es).2 = payload es

instance (caps : List Nat) (es : List (WsEvent ε)) : Decidable (Intact caps es) :=
  inferInstanceAs (Decidable (_ = _))

/-- Each message that is read fits into the buffer of its read. -/
def Fits : List Nat → List (WsEvent ε) → Prop
  | [], _ => True
  | _ :: _, [] => True
  | cap :: caps, .binary data :: es => data.length ≤ cap ∧ Fits caps es
  | cap :: caps, .close :: es => Fits (cap :: caps) es
  | cap :: caps, .other :: es => Fits (cap :: caps) es
  | _ :: caps, .pending :: es => Fits caps es
  | _ :: caps, .error _ :: es => Fits caps es

/-- At the end of the connection nothing is returned. -/
theorem readAll_nil (caps : List Nat) :
    readAll WsStream.pollRead caps ([] : List (WsEvent ε)) = ([], []) := by
  induction caps with
  | nil => rfl
  | cons cap caps ih =>
      rw [readAll]
      show (([] : Bytes) ++ (readAll WsStream.pollRead caps []).1, _) = _
      rw [List.nil_append]
      exact ih

/-- A message that is read goes into the buffer as far as it fits. -/
theorem readAll_binary (cap : Nat) (caps : List Nat) (data : Bytes) (es : List (WsEvent ε)) :
    readAll WsStream.pollRead (cap :: caps) (.binary data :: es)
      = (data.take cap ++ (readAll WsStream.pollRead caps es).1,
          (readAll WsStream.pollRead caps es).2) := by
  show (data.take (min data.length cap) ++ _, _) = _
  rw [Nat.min_comm, ← List.take_eq_take_min]
  rfl

/-- The reads never return more than there is. -/
theorem length_readAll_le (caps : List Nat) (es : List (WsEvent ε)) :
    (readAll WsStream.pollRead caps es).1.length
      + (payload (readAll WsStream.pollRead caps es).2).length ≤ (payload es).length := by
  fun_induction Fits caps es with
  | case1 es => exact Nat.le_of_eq (Nat.zero_add _)
  | case2 cap caps => rw [readAll_nil]; exact Nat.le_refl 0
  | case3 cap caps data es ih =>
      simp only [readAll_binary, payload, List.length_append, List.length_take]
      omega
  | case4 cap caps es ih => exact ih
  | case5 cap caps es ih => exact ih
  | case6 cap caps es ih => exact ih
  | case7 cap caps e es ih => exact ih

/-- **Messages.** However the messages and the buffers are cut, the reads return the payloads exactly
    if each message is read into a buffer that it fits into. -/
theorem intact_iff (caps : List Nat) (es : List (WsEvent ε)) : Intact caps es ↔ Fits caps es := by
  fun_induction Fits caps es with
  | case1 es => exact iff_of_true rfl trivial
  | case2 cap caps => exact iff_of_true (by rw [Intact, readAll_nil]; rfl) trivial
  | case3 cap caps data es ih =>
      have hle := length_readAll_le caps es
      rw [Intact, readAll_binary, payload, List.append_assoc, ← ih, Intact]
      constructor
      · intro h
        -- what does not fit is missing in the end
        have hlen := congrArg List.length h
        simp only [List.length_append, List.length_take] at hlen
        have hfits : data.length ≤ cap := by omega
        rw [List.take_of_length_le hfits] at h
        exact ⟨hfits, List.append_cancel_left h⟩
      · rintro ⟨hfits, hrest⟩
        rw [List.take_of_length_le hfits, hrest]
  | case4 cap caps es ih => exact ih
  | case5 cap caps es ih => exact ih
  | case6 cap caps es ih => exact ih
  | case7 cap caps e es ih => exact ih

/-- A message of more than one byte that is read with `read_u8`. -/
theorem not_intact_byte {data : Bytes} (hdata : 1 < data.length) (caps : List Nat)
    (es : List (WsEvent ε)) : ¬ Intact (1 :: caps) (.binary data :: es) := by
  intro h
  have hfits := ((intact_iff _ _).mp h).1
  omega

/-- A VLESS request in one message, read as `decode_vless_header` reads it: all but the version is
    lost. -/
theorem not_intact_request :
    (readAll WsStream.pollRead [1, 16, 1, 1, 2, 1, 4] [(.binary (Outbound.vlessRequest
        (Vector.replicate 16 0xAA) 0x01 (.socket ⟨.v4 0x01020304#32, 443⟩)) : WsEvent Unit)]).1
      = [0x00] ∧
    ¬ Intact [1, 16, 1, 1, 2, 1, 4] [(.binary (Outbound.vlessRequest (Vector.replicate 16 0xAA) 0x01
        (.socket ⟨.v4 0x01020304#32, 443⟩)) : WsEvent Unit)] := by
  decide

/-! ### The outbounds -/

/-- `TrojanWsStream::poll_read`, with the bytes in `read_buf`. -/
def TrojanWsStream.pollRead (cap : Nat) :
    Bytes → List (WsEvent ε) → Poll ε × (Bytes × List (WsEvent ε))
  | b :: bs, es => (.ready ((b :: bs).take cap), ((b :: bs).drop cap, es))
  | [], [] => (.ready [], ([], []))
  | [], .pending :: es => (.pending, ([], es))
  | [], .error e :: es => (.error e, ([], es))
  | [], .binary data :: es => pollRead cap data es
  | [], .close :: es => (.ready [], ([], es))
  | [], .other :: es => pollRead cap [] es

/-- `WsRawStream::poll_read`, which does the same. -/
def WsRawStream.pollRead (cap : Nat) :
    Bytes → List (WsEvent ε) → Poll ε × (Bytes × List (WsEvent ε)) :=
  TrojanWsStream.pollRead cap

/-- What is buffered and what is still to come. -/
def left (s : Bytes × List (WsEvent ε)) : Bytes := s.1 ++ payload s.2

/-- If no read loses anything, the reads lose nothing. -/
theorem readAll_conserves {σ : Type} {poll : Nat → σ → Poll ε × σ} {left : σ → Bytes}
    (hpoll : ∀ cap s, (poll cap s).1.bytes ++ left (poll cap s).2 = left s) (caps : List Nat)
    (s : σ) : (readAll poll caps s).1 ++ left (readAll poll caps s).2 = left s := by
  induction caps generalizing s with
  | nil => rfl
  | cons cap caps ih =>
      show ((poll cap s).1.bytes ++ _) ++ left (readAll poll caps (poll cap s).2).2 = _
      rw [List.append_assoc, ih, hpoll]

theorem TrojanWsStream.left_pollRead (cap : Nat) (readBuf : Bytes) (es : List (WsEvent ε)) :
    (pollRead cap readBuf es).1.bytes ++ left (pollRead cap readBuf es).2 = readBuf ++ payload es := by
  fun_induction pollRead cap readBuf es with
  | case1 b bs es =>
      show (b :: bs).take cap ++ ((b :: bs).drop cap ++ payload es) = _
      rw [← List.append_assoc, List.take_append_drop]
  | case2 => rfl
  | case3 es => rfl
  | case4 e es => rfl
  | case5 data es ih => exact ih
  | case6 es => rfl
  | case7 es ih => exact ih

/-- **With a buffer** for the rest of a message the reads return the payloads, whatever the sizes. -/
theorem buffered_intact (caps : List Nat) (es : List (WsEvent ε)) :
    (readAll (fun cap s => WsRawStream.pollRead cap s.1 s.2) caps ([], es)).1
      ++ left (readAll (fun cap s => WsRawStream.pollRead cap s.1 s.2) caps ([], es)).2
      = payload es :=
  readAll_conserves (fun cap s => TrojanWsStream.left_pollRead cap s.1 s.2) caps ([], es)

end Reflex.Inbound.Ws
