import InodeVpn.Fork.Login
import InodeVpn.Lib.Splice

namespace InodeVpn.Proofs.LoginCredentials
open Lib Fork.Login

def NulFree (s : String) : Prop := Char.ofNat 0 ∉ s.toList

instance : DecidablePred NulFree := fun s => inferInstanceAs (Decidable (Char.ofNat 0 ∉ s.toList))

@[simp] theorem nulFree_append {s t : String} : NulFree (s ++ t) ↔ NulFree s ∧ NulFree t := by
  simp [NulFree]

/-- A username and a password as C has them. -/
@[ext]
structure Credentials where
  username : String
  password : String
  username_free : NulFree username
  password_free : NulFree password

/-- `buf_append_urlencoded` encodes piece by piece, and differently for different texts. -/
structure Encodes (oc : Openconnect) : Prop where
  append : ∀ s t, NulFree s → NulFree t →
    oc.urlencoded (some (s ++ t)) = oc.urlencoded (some s) ++ oc.urlencoded (some t)
  injective : ∀ s t, NulFree s → NulFree t →
    oc.urlencoded (some s) = oc.urlencoded (some t) → s = t

def request (oc : Openconnect) (c : Credentials) : String :=
  loginRequest oc (some c.username) (some c.password)

/-- The tags between the username and the password. -/
def tags : String := "</username><password>"

/-- The tags are in neither part. -/
def Separable (c : Credentials) : Prop :=
  strstr c.username tags = false ∧ strstr c.password tags = false

theorem tags_unbordered : Unbordered tags.toList := by
  unfold Unbordered
  decide

/-- The document that the request carries. -/
def document (c : Credentials) : String :=
  "<data><username>" ++ c.username ++ tags ++ c.password ++ "</password></data>\r\n"

section Request
variable {oc : Openconnect} (henc : Encodes oc) {c c' : Credentials}

theorem literals_free :
    NulFree "<data><username>" ∧ NulFree tags ∧ NulFree "</password></data>\r\n" := by
  decide +kernel

theorem document_free (c : Credentials) : NulFree (document c) := by
  obtain ⟨hopen, htags, hclose⟩ := literals_free
  unfold document
  rw [nulFree_append, nulFree_append, nulFree_append, nulFree_append]
  exact ⟨⟨⟨⟨hopen, c.username_free⟩, htags⟩, c.password_free⟩, hclose⟩

include henc

theorem request_eq : request oc c = "request=" ++ oc.urlencoded (some (document c)) := by
  obtain ⟨hopen, htags, hclose⟩ := literals_free
  have hname := nulFree_append.mpr ⟨hopen, c.username_free⟩
  have hbetween := nulFree_append.mpr ⟨hname, htags⟩
  have hword := nulFree_append.mpr ⟨hbetween, c.password_free⟩
  unfold document
  rw [henc.append _ _ hword hclose, henc.append _ _ hbetween c.password_free,
    henc.append _ _ hname htags, henc.append _ _ hopen c.username_free]
  simp only [request, loginRequest, tags, String.append_assoc]

/-- Requests are the same when they splice the same text together. -/
theorem request_eq_iff : request oc c = request oc c' ↔
    c.username.toList ++ tags.toList ++ c.password.toList =
      c'.username.toList ++ tags.toList ++ c'.password.toList := by
  have hdocument : request oc c = request oc c' ↔ document c = document c' := by
    rw [request_eq henc, request_eq henc]
    constructor
    · intro h
      refine henc.injective _ _ (document_free c) (document_free c') ?_
      exact String.toList_inj.mp (by simpa using congrArg String.toList h)
    · intro h
      rw [h]
  rw [hdocument, ← String.toList_inj]
  unfold document
  simp only [String.toList_append]
  rw [List.append_left_inj]
  simp only [List.append_assoc, List.append_right_inj]

/-- The request of a user is that of no other just when the tags are in neither part. -/
theorem identified_iff :
    (∀ c', request oc c' = request oc c → c' = c) ↔ Separable c := by
  have hin (s : String) : strstr s tags = false ↔ ¬ tags.toList <:+: s.toList := by
    rw [strstr, decide_eq_false_iff_not]
  simp only [Separable, hin, request_eq_iff henc]
  constructor
  · intro honly
    rw [← not_or]
    intro hsplice
    obtain ⟨u, v, heq, hne⟩ := exists_splice (by decide) hsplice
    have hfree : Char.ofNat 0 ∉ u ++ tags.toList ++ v := by
      rw [heq]
      simpa only [List.mem_append, not_or] using
        ⟨⟨c.username_free, literals_free.2.1⟩, c.password_free⟩
    simp only [List.mem_append, not_or] at hfree
    obtain ⟨⟨hu, -⟩, hv⟩ := hfree
    let other : Credentials :=
      ⟨String.ofList u, String.ofList v, by rwa [NulFree, String.toList_ofList],
        by rwa [NulFree, String.toList_ofList]⟩
    have hsame := honly other (by simpa [other] using heq)
    exact hne (by simpa [other] using congrArg (fun c => c.username.toList) hsame)
  · rintro ⟨hname, hword⟩ c' heq
    rcases tags_unbordered.splice_eq heq with ⟨huser, hpass⟩ | ⟨-, hin⟩ | ⟨hin, -⟩
    · exact Credentials.ext (String.toList_inj.mp huser) (String.toList_inj.mp hpass)
    · exact absurd hin hword
    · exact absurd hin hname

end Request

/-- The users whose requests identify them are those without the tags, and the credentials of
all of these can be read out of their requests. -/
theorem login_identifies_credentials {oc : Openconnect} (henc : Encodes oc) :
    (∀ c, (∀ c', request oc c' = request oc c → c' = c) ↔ Separable c) ∧
      ∃ decode : String → Option (String × String), ∀ c, Separable c →
        decode (request oc c) = some (c.username, c.password) := by
  classical
  refine ⟨fun c => identified_iff henc, ?_⟩
  let decode (body : String) : Option (String × String) :=
    if h : ∃ c, Separable c ∧ request oc c = body then
      some (h.choose.username, h.choose.password)
    else none
  refine ⟨decode, fun c hc => ?_⟩
  have h : ∃ c', Separable c' ∧ request oc c' = request oc c := ⟨c, hc, rfl⟩
  have hsame : h.choose = c := (identified_iff henc).mpr hc _ h.choose_spec.2
  simp only [decode, dif_pos h, hsame]

section Urlencoded

def isUnreserved (b : Nat) : Bool :=
  b < 128 && ((Char.ofNat b).isAlphanum || b ∈ ['-', '_', '.', '~'].map Char.toNat)

def encodeByte (b : Nat) : List Char :=
  if isUnreserved b then [Char.ofNat b] else ['%', (b / 16).digitChar, (b % 16).digitChar]

/-- `buf_append_urlencoded`. -/
def bufAppendUrlencoded (str : Option String) : String :=
  String.ofList ((str.elim [] fun s => s.toByteArray.data.toList).flatMap
    fun b => encodeByte b.toNat)

def hexValue (c : Char) : Nat := if c.isDigit then c.toNat - 48 else c.toNat - 87

/-- The byte that an encoding begins with, and what is behind it. -/
def firstByte : List Char → Nat × List Char
  | '%' :: high :: low :: rest => (hexValue high * 16 + hexValue low, rest)
  | c :: rest => (c.toNat, rest)
  | [] => (0, [])

theorem firstByte_encodeByte {b : Nat} (hb : b < 256) (rest : List Char) :
    firstByte (encodeByte b ++ rest) = (b, rest) := by
  have hplain : ∀ b < 256, isUnreserved b = true →
      Char.ofNat b ≠ '%' ∧ (Char.ofNat b).toNat = b := by decide +kernel
  have hhex : ∀ n < 16, hexValue n.digitChar = n := by decide
  unfold encodeByte
  split
  · rename_i hunreserved
    obtain ⟨hpercent, hvalue⟩ := hplain b hb hunreserved
    simp [firstByte, hpercent, hvalue]
  · have hjoin : hexValue (b / 16).digitChar * 16 + hexValue (b % 16).digitChar = b := by
      rw [hhex _ (by omega), hhex _ (by omega)]
      omega
    exact Prod.ext hjoin rfl

theorem encodeByte_ne_nil (b : Nat) : encodeByte b ≠ [] := by
  unfold encodeByte
  split <;> simp

theorem encodeBytes_injective {bytes bytes' : List UInt8}
    (h : (bytes.flatMap fun b => encodeByte b.toNat) =
      bytes'.flatMap fun b => encodeByte b.toNat) : bytes = bytes' := by
  induction bytes generalizing bytes' with
  | nil =>
    cases bytes' with
    | nil => rfl
    | cons b' bytes' => simp [encodeByte_ne_nil] at h
  | cons b bytes ih =>
    cases bytes' with
    | nil => simp [encodeByte_ne_nil] at h
    | cons b' bytes' =>
      rw [List.flatMap_cons, List.flatMap_cons] at h
      have hfirst := congrArg firstByte h
      rw [firstByte_encodeByte b.toNat_lt, firstByte_encodeByte b'.toNat_lt,
        Prod.mk.injEq] at hfirst
      rw [UInt8.toNat_inj.mp hfirst.1, ih hfirst.2]

def openconnect : Openconnect where
  addOptionDup option value options := (option, value) :: options
  urlencoded := bufAppendUrlencoded

theorem encodes_openconnect : Encodes openconnect where
  append s t _ _ := by
    simp [openconnect, bufAppendUrlencoded, String.toByteArray_append]
  injective s t _ _ h := by
    have hbytes := encodeBytes_injective (by
      simpa [openconnect, bufAppendUrlencoded, String.ofList_inj] using h)
    exact String.toByteArray_inj.mp (ByteArray.ext (Array.toList_inj.mp hbytes))

end Urlencoded

theorem login_identifies_credentials_sample :
    (∀ c, (∀ c', request openconnect c' = request openconnect c → c' = c) ↔ Separable c) ∧
      ∃ decode : String → Option (String × String), ∀ c, Separable c →
        decode (request openconnect c) = some (c.username, c.password) :=
  login_identifies_credentials encodes_openconnect

/-- A password with the tags in it, and the user that it can be mistaken for. -/
def intended : Credentials :=
  ⟨"alice", "b</username><password>c", by decide, by decide⟩

def mistaken : Credentials :=
  ⟨"alice</username><password>b", "c", by decide, by decide⟩

theorem tags_in_password_collide :
    request openconnect intended = request openconnect mistaken ∧
      intended.username ≠ mistaken.username ∧ intended.password ≠ mistaken.password := by
  refine ⟨?_, by decide, by decide⟩
  decide +kernel

end InodeVpn.Proofs.LoginCredentials
