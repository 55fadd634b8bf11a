import Reflex.Lib.Blake3
import Reflex.Outbound.Shadowsocks

namespace Reflex.Shadowsocks

open RustStd

/-!
# Shadowsocks — keys

`ShadowsocksOutbound` of `outbound/shadowsocks.rs`: the key material of its configuration, the subkey of
a connection, and the bytes with which a connection starts.  The hash functions of other crates and their
decoder of Base64 are parameters.

* `length_evpBytesToKey`, `length_deriveSubkey` — keys have the length that the method needs;
* `connectSs_spec` — a connection starts with the salt and the target in one chunk.
-/

/-! ### Hash functions of other crates -/

/-- MD5, HKDF-SHA1 and the three modes of BLAKE3.  HKDF expands to no more than 255 hashes. -/
structure SsHashes where
  md5 (data : Bytes) : Vector UInt8 16
  hkdfSha1 (salt ikm info : Bytes) {len : Nat} (hlen : len ≤ 255 * 20) : Vector UInt8 len
  blake3Hash (data : Bytes) : Vector UInt8 32
  blake3KeyedHash (key : Vector UInt8 32) (data : Bytes) : Vector UInt8 32
  blake3DeriveKey (context : Str) (material : Bytes) : Vector UInt8 32

variable (H : SsHashes)

/-! ### Key derivation -/

/-- The loop of `evp_bytes_to_key`, with a number of rounds that is enough. -/
def evpRounds (md5 : Bytes → Vector UInt8 16) (password : Bytes) (keyLen : Nat) :
    Nat → Bytes → Bytes → Bytes
  | 0, _, key => key
  | fuel + 1, prev, key =>
      if key.length < keyLen then
        let prev := (md5 (prev ++ password)).toList
        evpRounds md5 password keyLen fuel prev (key ++ prev)
      else key

/-- `evp_bytes_to_key`. -/
def evpBytesToKey (password : Bytes) (keyLen : Nat) : Bytes :=
  (evpRounds H.md5 password keyLen keyLen [] []).take keyLen

/-- `hkdf_sha1`. -/
def hkdfSha1 (masterKey salt : Bytes) {keyLen : Nat} (hlen : keyLen ≤ 255 * 20) : Bytes :=
  (H.hkdfSha1 salt masterKey (utf8 "ss-subkey".toList) hlen).toList

/-- `ss2022_session_key`. -/
def ss2022SessionKey (psk salt : Bytes) (keyLen : Nat) : Bytes :=
  let blake3Key := (keyFromSlice 32 psk).getD (H.blake3Hash psk)
  (H.blake3KeyedHash blake3Key salt).toList.take keyLen

theorem Method.keyLen_le (m : Method) : m.keyLen ≤ 32 := by
  cases m <;> decide

/-- `ShadowsocksOutbound`, as far as keys depend on it. -/
structure ShadowsocksOutbound where
  method : Method
  keyMaterial : Bytes
  deriving DecidableEq, Repr

namespace ShadowsocksOutbound

/-- `ShadowsocksOutbound::new`, with `STANDARD.decode` of the `base64` crate; how that words its errors is left
    out. -/
def new (base64 : Str → Option Bytes) (methodName password : Str) : Except SsError ShadowsocksOutbound :=
  match Method.fromStr methodName with
  | .error e => .error e
  | .ok method =>
      if method.is2022 then
        match base64 (trim password) with
        | none => .error (.other "2022 PSK base64 decode: ".toList)
        | some psk =>
            if psk.length = method.keyLen then .ok { method, keyMaterial := psk }
            else .error (.other ("2022 PSK length mismatch: expected ".toList
              ++ display method.keyLen ++ " got ".toList ++ display psk.length))
      else if method = .none then .ok { method, keyMaterial := [] }
      else .ok { method, keyMaterial := evpBytesToKey H (utf8 password) method.keyLen }

/-- `derive_subkey`. -/
def deriveSubkey (ob : ShadowsocksOutbound) (salt : Bytes) : Bytes :=
  if ob.method.is2022 then ss2022SessionKey H ob.keyMaterial salt ob.method.keyLen
  else hkdfSha1 H ob.keyMaterial salt (ob.method.keyLen_le.trans (by decide))

/-- `connect_ss` with the salt that it draws: what is sent before any data. -/
def connectSs (C : SsCiphers) (ob : ShadowsocksOutbound) (salt : Bytes) (target : Target) :
    Except SsError Bytes :=
  let firstPayload := encodeTarget target
  if ob.method = .none then .ok firstPayload
  else
    match ({ inner := salt, enc := .new ob.method (ob.deriveSubkey H salt) } : SsWriter).writeChunk C
        firstPayload with
    | (.error e, _) => .error e
    | (.ok (), w) => .ok w.inner

end ShadowsocksOutbound

/-! ### Lengths -/

variable {H}

/-- A round adds sixteen bytes, so that as many rounds as bytes are enough. -/
theorem le_length_evpRounds {md5 : Bytes → Vector UInt8 16} {password : Bytes} {keyLen fuel : Nat}
    {prev key : Bytes} (hfuel : keyLen ≤ key.length + fuel) :
    keyLen ≤ (evpRounds md5 password keyLen fuel prev key).length := by
  induction fuel generalizing prev key with
  | zero => exact hfuel
  | succ fuel ih =>
      rw [evpRounds]
      split
      · refine ih ?_
        rw [List.length_append, Vector.length_toList]
        omega
      · rename_i hdone
        exact Nat.not_lt.mp hdone

theorem length_evpBytesToKey (password : Bytes) (keyLen : Nat) :
    (evpBytesToKey H password keyLen).length = keyLen := by
  have hrounds : keyLen ≤ (evpRounds H.md5 password keyLen keyLen [] []).length :=
    le_length_evpRounds (Nat.le_add_left keyLen _)
  rw [evpBytesToKey, List.length_take, Nat.min_eq_left hrounds]

theorem length_ss2022SessionKey (psk salt : Bytes) {keyLen : Nat} (h : keyLen ≤ 32) :
    (ss2022SessionKey H psk salt keyLen).length = keyLen := by
  rw [ss2022SessionKey, List.length_take, Vector.length_toList, Nat.min_eq_left h]

namespace ShadowsocksOutbound

theorem length_deriveSubkey (ob : ShadowsocksOutbound) (salt : Bytes) :
    (ob.deriveSubkey H salt).length = ob.method.keyLen := by
  rw [deriveSubkey]
  split
  · exact length_ss2022SessionKey _ _ ob.method.keyLen_le
  · exact Vector.length_toList

/-- **Key material**, by the kind of the method. -/
theorem new_cases {base64 : Str → Option Bytes} {methodName password : Str} {ob : ShadowsocksOutbound}
    (h : new H base64 methodName password = .ok ob) :
    Method.fromStr methodName = .ok ob.method ∧
      (ob.method.is2022 = true ∧ base64 (trim password) = some ob.keyMaterial ∧
          ob.keyMaterial.length = ob.method.keyLen ∨
        ob.method = .none ∧ ob.keyMaterial = [] ∨
        ob.method.is2022 = false ∧ ob.method ≠ .none ∧
          ob.keyMaterial = evpBytesToKey H (utf8 password) ob.method.keyLen) := by
  rw [new] at h
  split at h
  · cases h
  · rename_i method hmethod
    split at h
    · rename_i h2022
      split at h
      · cases h
      · rename_i psk hpsk
        split at h
        · rename_i hlen
          obtain rfl := Except.ok.inj h
          exact ⟨hmethod, .inl ⟨h2022, hpsk, hlen⟩⟩
        · cases h
    · rename_i h2022
      split at h
      · rename_i hnone
        obtain rfl := Except.ok.inj h
        exact ⟨hmethod, .inr (.inl ⟨hnone, rfl⟩)⟩
      · rename_i hnone
        obtain rfl := Except.ok.inj h
        exact ⟨hmethod, .inr (.inr ⟨Bool.eq_false_of_not_eq_true h2022, hnone, rfl⟩)⟩

/-- An outbound that was made has key material of the length its method needs. -/
theorem length_keyMaterial {base64 : Str → Option Bytes} {methodName password : Str} {ob : ShadowsocksOutbound}
    (h : new H base64 methodName password = .ok ob) : ob.keyMaterial.length = ob.method.keyLen := by
  obtain ⟨-, ⟨-, -, hlen⟩ | ⟨hnone, hkey⟩ | ⟨-, -, hkey⟩⟩ := new_cases h
  · exact hlen
  · rw [hnone, hkey]
    rfl
  · rw [hkey]
    exact length_evpBytesToKey _ _

/-- A cipher with a derived subkey can encrypt. -/
theorem keyed {ob : ShadowsocksOutbound} (h : ob.method ≠ .none) (salt : Bytes) :
    (AeadCipher.new ob.method (ob.deriveSubkey H salt)).Keyed :=
  ⟨h, ob.length_deriveSubkey salt⟩

/-- **The start of a connection**: the salt, and the target in a chunk of its own. -/
theorem connectSs_spec {C : SsCiphers} (hC : C.Lawful) {ob : ShadowsocksOutbound}
    (h : ob.method ≠ .none) (salt : Bytes) {target : Target}
    (htarget : (encodeTarget target).length < 2 ^ 16) :
    ∃ frame enc, (AeadCipher.new ob.method (ob.deriveSubkey H salt)).sealChunk C (encodeTarget target)
        = (.ok frame, enc) ∧
      ob.connectSs H C salt target = .ok (salt ++ frame) := by
  obtain ⟨frame, hseal, -⟩ := readChunk_sealChunk hC (keyed h salt) htarget
  refine ⟨frame, _, hseal, ?_⟩
  rw [connectSs, if_neg h]
  simp only [SsWriter.writeChunk, hseal]

end ShadowsocksOutbound

/-! ### BLAKE3 -/

/-- BLAKE3, and constants in place of the hashes that the 2022 methods do not use. -/
def blake3Hashes : SsHashes where
  md5 _ := Vector.replicate 16 0
  hkdfSha1 _ _ _ _ _ := Vector.replicate _ 0
  blake3Hash := Blake3.hash
  blake3KeyedHash := Blake3.keyedHash
  blake3DeriveKey context := Blake3.deriveKey (utf8 context)

end Reflex.Shadowsocks
