import ScatterWeb.Client.Fields

/-! # The delivery frame of `client/src/cert.cpp`

The outer frame that the Client hands to its outbox and that an inbox stores. The map has room for one field less than is
added to it, so the envelope is never part of the bytes. -/
namespace ScatterWeb.Client
open Crypto Lib Lib.Cbor
set_option autoImplicit false

structure DeliveryFrame where
  messageId : Bytes
  persistence : Bytes
  senderId : Bytes
  certFingerprint : Bytes := []
  senderOutboxCert : Bytes := []
  envelopeType : Bytes := []
  encryptedEnvelope : Bytes := []

def deliveryFrameMap (f : DeliveryFrame) : DefMap :=
  let root := DefMap.new (if f.senderOutboxCert = [] then 6 else 7)
  let root := mapAddUint root "version" 1
  let root := mapAddBytes root "message_id" f.messageId
  let root := mapAddStr root "persistence" f.persistence
  let root := mapAddBytes root "sender_id" f.senderId
  let root := mapAddBytes root "cert_fingerprint" f.certFingerprint
  let root := if f.senderOutboxCert = [] then root else mapAddBytes root "sender_outbox_auth_cert" f.senderOutboxCert
  let root := mapAddStr root "envelope_type" f.envelopeType
  mapAddBytes root "encrypted_envelope" f.encryptedEnvelope

def encodeDeliveryFrame (f : DeliveryFrame) : Bytes := cborSer (deliveryFrameMap f)

theorem deliveryFrameMap_pairs (f : DeliveryFrame) : (deliveryFrameMap f).pairs =
    ([(.text (ascii "version"), .uint (.a64 1)), (.text (ascii "message_id"), .bytes f.messageId),
      (.text (ascii "persistence"), .text (cStr f.persistence)), (.text (ascii "sender_id"), .bytes f.senderId),
      (.text (ascii "cert_fingerprint"), .bytes f.certFingerprint)] : List (Item × Item)) ++
    (if f.senderOutboxCert = [] then ([] : List (Item × Item))
      else [(.text (ascii "sender_outbox_auth_cert"), .bytes f.senderOutboxCert)]) ++
    ([(.text (ascii "envelope_type"), .text (cStr f.envelopeType))] : List (Item × Item)) := by
  by_cases h : f.senderOutboxCert = []
  · simp [deliveryFrameMap, h, mapAddUint, mapAddStr, mapAddBytes, DefMap.add_pairs]
  · simp [deliveryFrameMap, h, mapAddUint, mapAddStr, mapAddBytes, DefMap.add_pairs]

def deliveryFrameKeys : List String :=
  ["version", "message_id", "persistence", "sender_id", "cert_fingerprint", "sender_outbox_auth_cert", "envelope_type"]

theorem keys_deliveryFrameMap (f : DeliveryFrame) : ∀ kv ∈ (deliveryFrameMap f).pairs, ∃ k ∈ deliveryFrameKeys, kv.1 = .text (ascii k) := by
  rw [deliveryFrameMap_pairs]
  by_cases h : f.senderOutboxCert = []
  · simp only [h, if_true, List.append_nil, List.cons_append, List.nil_append, List.forall_mem_cons]
    exact ⟨⟨"version", by decide, rfl⟩, ⟨"message_id", by decide, rfl⟩, ⟨"persistence", by decide, rfl⟩, ⟨"sender_id", by decide, rfl⟩,
      ⟨"cert_fingerprint", by decide, rfl⟩, ⟨"envelope_type", by decide, rfl⟩, fun kv hkv => absurd hkv List.not_mem_nil⟩
  · simp only [if_neg h, List.cons_append, List.nil_append, List.forall_mem_cons]
    exact ⟨⟨"version", by decide, rfl⟩, ⟨"message_id", by decide, rfl⟩, ⟨"persistence", by decide, rfl⟩, ⟨"sender_id", by decide, rfl⟩,
      ⟨"cert_fingerprint", by decide, rfl⟩, ⟨"sender_outbox_auth_cert", by decide, rfl⟩, ⟨"envelope_type", by decide, rfl⟩,
      fun kv hkv => absurd hkv List.not_mem_nil⟩

end ScatterWeb.Client
