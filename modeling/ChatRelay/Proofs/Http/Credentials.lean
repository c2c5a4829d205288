import ChatRelay.Http.Credentials
import ChatRelay.Proofs.Text.Base64
import ChatRelay.Proofs.Text.Lines
import ChatRelay.Proofs.Text.Lossy

/-!
# Who is let in

A header carries a name and a password if it is plain ASCII text that says `basic`, in whatever
letters, and after the first space, with blanks around it, the Base64 form of the two with a colon
between them, where the name has no colon of its own (`Carries`). Each step of reading a header is
undone by one of writing it, so a header is read as the credentials it carries and as no others
(`ofHeader?_eq_some_iff`), and it is accepted if these are the configured ones (`accepts_iff`). What
a client sends for its credentials is such a header, unless the name has a colon: then it stands for
a shorter name and a longer password (`accepts_headerValue`).
-/

namespace ChatRelay.Http

/-- A header value that carries credentials. -/
structure Carries (v : HeaderValue) (c : Credentials) : Prop where
  /-- Visible characters of ASCII, spaces and tabs. -/
  plain : ∀ b ∈ v.bytes, 0x20 ≤ b ∧ b < 0x7F ∨ b = 0x09
  parts : ∃ name rest : List Char,
    v.bytes.map (fun b => Char.ofNat b.toNat) = name ++ ' ' :: rest ∧ ' ' ∉ name ∧
      Text.lowerAscii name = Credentials.scheme ∧
        Text.trim rest = Base64.encode (Utf8.encode (c.username ++ ":" ++ c.password))
  /-- The name ends at the first colon. -/
  username : ':' ∉ c.username.toList

namespace HeaderValue

variable {v : HeaderValue} {cs : List Char}

theorem text?_eq_some_iff :
    v.text? = some cs ↔ (∀ b ∈ v.bytes, 0x20 ≤ b ∧ b < 0x7F ∨ b = 0x09) ∧
      v.bytes.map (fun b => Char.ofNat b.toNat) = cs := by
  rw [text?]
  split
  · next hall => simpa using fun _ => by simpa using hall
  · next hall => simpa using fun h => absurd h (by simpa using hall)

end HeaderValue

namespace Credentials

variable {c sent : Credentials} {v : HeaderValue}

/-! ### Comparing -/

/-- Nothing is seen exactly if the bytes are the same in every place. -/
theorem seen_eq_zero_iff (pairs : List (UInt8 × UInt8)) (seen : UInt8) :
    pairs.foldl (fun seen p => seen ||| (p.1 ^^^ p.2)) seen = 0 ↔
      seen = 0 ∧ ∀ p ∈ pairs, p.1 = p.2 := by
  induction pairs generalizing seen with
  | nil => simp
  | cons p pairs ih =>
    rw [List.foldl_cons, ih, UInt8.or_eq_zero_iff, UInt8.xor_eq_zero_iff, List.forall_mem_cons,
      and_assoc]

theorem sameBytes_iff {xs ys : List UInt8} : sameBytes xs ys = true ↔ xs = ys := by
  rw [sameBytes, Bool.and_eq_true, beq_iff_eq, beq_iff_eq, seen_eq_zero_iff,
    ← List.forall₂_eq_eq_eq, List.forall₂_iff_zip]
  simp

/-- What is accepted is a header with these credentials. -/
theorem accepts_some_iff : c.accepts (some v) = true ↔ ofHeader? v = some c := by
  rw [accepts, Option.bind_some]
  cases ofHeader? v with
  | none => simp
  | some sent =>
    simp only [Bool.and_eq_true, sameBytes_iff, Option.some.injEq]
    constructor
    · rintro ⟨hname, hpassword⟩
      obtain ⟨username, password⟩ := c
      obtain rfl : sent.username = username := Utf8.encode_inj hname
      obtain rfl : sent.password = password := Utf8.encode_inj hpassword
      rfl
    · rintro rfl
      exact ⟨rfl, rfl⟩

/-! ### Reading -/

theorem toList_pair (c : Credentials) :
    (c.username ++ ":" ++ c.password).toList = c.username.toList ++ ':' :: c.password.toList := by
  simp

theorem ofHeader?_eq_some_iff : ofHeader? v = some c ↔ Carries v c := by
  constructor
  · intro h
    simp only [ofHeader?, Option.bind_eq_bind, Option.bind_eq_some_iff] at h
    obtain ⟨value, hvalue, ⟨name, rest⟩, hcut, h⟩ := h
    obtain ⟨hplain, rfl⟩ := HeaderValue.text?_eq_some_iff.1 hvalue
    split at h
    · next hscheme =>
      simp only [Option.bind_eq_some_iff] at h
      obtain ⟨bytes, hbytes, cs, hcs, ⟨username, password⟩, hpair, h⟩ := h
      obtain rfl := Option.some.inj h
      refine ⟨hplain, ⟨name, rest, Text.eq_append_of_splitOnce hcut,
        Text.not_mem_of_splitOnce hcut, hscheme, ?_⟩, ?_⟩
      · rw [Base64.decode?_eq_some_iff.1 hbytes, Utf8.eq_encodeChars_of_decodeChars? hcs,
          Text.eq_append_of_splitOnce hpair, Utf8.encode, toList_pair, String.toList_ofList,
          String.toList_ofList]
      · rw [String.toList_ofList]
        exact Text.not_mem_of_splitOnce hpair
    · cases h
  · rintro ⟨hplain, ⟨name, rest, hvalue, hspace, hscheme, hrest⟩, husername⟩
    have htext := HeaderValue.text?_eq_some_iff.2 ⟨hplain, hvalue⟩
    simp only [ofHeader?, htext, Text.splitOnce_append hspace, hscheme, hrest,
      Base64.decode?_encode, Utf8.encode, Utf8.decodeChars?_encodeChars, toList_pair,
      Text.splitOnce_append husername, Option.bind_eq_bind, Option.bind_some, if_true,
      String.ofList_toList]

/-! ### Writing -/

/-- The bytes that a client sends for its credentials. -/
def headerValue (c : Credentials) : HeaderValue := ⟨Utf8.encodeChars c.header⟩

theorem visible_of_mem_header {x : Char} (h : x ∈ c.header) :
    0x20 ≤ x.toNat ∧ x.toNat < 0x7F := by
  rcases List.mem_append.1 h with h | h
  · have hall : ∀ x ∈ ['B', 'a', 's', 'i', 'c', ' '], 0x20 ≤ x.toNat ∧ x.toNat < 0x7F := by
      simp
    exact hall x h
  · have := Base64.visible_of_mem_encode x h
    omega

/-- Each visible character of ASCII is one byte. -/
theorem encodeChars_of_visible {cs : List Char}
    (h : ∀ x ∈ cs, 0x20 ≤ x.toNat ∧ x.toNat < 0x7F) :
    Utf8.encodeChars cs = cs.map fun x => UInt8.ofNat x.toNat := by
  induction cs with
  | nil => rfl
  | cons x cs ih =>
    obtain ⟨hx, hrest⟩ := List.forall_mem_cons.1 h
    have hbyte : (UInt8.ofNat x.toNat).toNat = x.toNat := Utf8.toNat_ofNat (by omega)
    have hone := Utf8.utf8EncodeChar_one (b := UInt8.ofNat x.toNat) (by omega)
    rw [hbyte, Char.ofNat_toNat] at hone
    rw [List.map_cons, ← ih hrest, Utf8.encodeChars, List.flatMap_cons, hone]
    rfl

/-- The bytes that are sent are those of visible characters. -/
theorem exists_of_mem_headerValue {b : UInt8} (h : b ∈ c.headerValue.bytes) :
    ∃ x ∈ c.header, b.toNat = x.toNat ∧ 0x20 ≤ b.toNat ∧ b.toNat < 0x7F := by
  rw [headerValue, encodeChars_of_visible fun x => visible_of_mem_header] at h
  obtain ⟨x, hx, rfl⟩ := List.mem_map.1 h
  have hvisible := visible_of_mem_header hx
  have hbyte : (UInt8.ofNat x.toNat).toNat = x.toNat := Utf8.toNat_ofNat (by omega)
  exact ⟨x, hx, hbyte, by omega⟩

/-- What is sent is the value of a header. -/
theorem ofBytes?_header (c : Credentials) :
    HeaderValue.ofBytes? (Utf8.encodeChars c.header) = some c.headerValue := by
  refine if_pos (List.all_eq_true.2 fun b hb => ?_)
  obtain ⟨-, -, -, hvisible⟩ := exists_of_mem_headerValue (c := c) hb
  have hne : b ≠ 0x7F := by
    rintro rfl
    exact absurd hvisible.2 (by decide)
  simp [isFieldByte, UInt8.le_iff_toNat_le, hvisible.1, hne]

theorem text?_headerValue (c : Credentials) : c.headerValue.text? = some c.header := by
  rw [HeaderValue.text?_eq_some_iff]
  constructor
  · intro b hb
    obtain ⟨-, -, -, hvisible⟩ := exists_of_mem_headerValue hb
    exact .inl hvisible
  · rw [headerValue, encodeChars_of_visible fun x => visible_of_mem_header, List.map_map]
    refine (List.map_congr_left fun x hx => ?_).trans (List.map_id _)
    have hvisible := visible_of_mem_header hx
    rw [Function.comp_apply, Utf8.toNat_ofNat (by omega), Char.ofNat_toNat]
    rfl

/-- What a client sends is accepted if it is the same text, cut in the same place. -/
theorem accepts_headerValue (c sent : Credentials) :
    c.accepts (some sent.headerValue) = true ↔ ':' ∉ c.username.toList ∧
      sent.username ++ ":" ++ sent.password = c.username ++ ":" ++ c.password := by
  have hcut : sent.header = ['B', 'a', 's', 'i', 'c'] ++ ' ' ::
      Base64.encode (Utf8.encode (sent.username ++ ":" ++ sent.password)) := rfl
  have hspace : ' ' ∉ ['B', 'a', 's', 'i', 'c'] := by decide
  obtain ⟨hplain, hvalue⟩ := HeaderValue.text?_eq_some_iff.1 (text?_headerValue sent)
  rw [accepts_some_iff, ofHeader?_eq_some_iff]
  constructor
  · rintro ⟨-, ⟨name, rest, hparts, hname, -, hrest⟩, husername⟩
    -- The first space is the one after the scheme.
    have hboth := hparts.symm.trans (hvalue.trans hcut)
    have hsame := (Text.splitOnce_append hname rest).symm.trans
      ((congrArg (Text.splitOnce ' ') hboth).trans (Text.splitOnce_append hspace _))
    obtain ⟨-, rfl⟩ := Prod.mk.inj (Option.some.inj hsame)
    rw [Base64.trim_encode] at hrest
    have hdecoded := congrArg Base64.decode? hrest
    rw [Base64.decode?_encode, Base64.decode?_encode] at hdecoded
    exact ⟨husername, Utf8.encode_inj (Option.some.inj hdecoded)⟩
  · rintro ⟨husername, hsame⟩
    refine ⟨hplain, ⟨_, _, hvalue.trans hcut, hspace, rfl, ?_⟩, husername⟩
    rw [Base64.trim_encode, hsame]

/-- A header is accepted exactly if it carries the configured credentials. What a client writes for
its credentials is the value of a header. For the configured ones it is accepted exactly if their
name has no colon, and if it has none, others are accepted exactly if name and password are the same
text with a colon between them. -/
theorem accepts_iff (c : Credentials) :
    (∀ v, c.accepts (some v) = true ↔ Carries v c) ∧
      (∀ sent : Credentials,
        HeaderValue.ofBytes? (Utf8.encodeChars sent.header) = some sent.headerValue) ∧
      (c.accepts (some c.headerValue) = true ↔ ':' ∉ c.username.toList) ∧
      (':' ∉ c.username.toList → ∀ sent : Credentials,
        (c.accepts (some sent.headerValue) = true ↔
          sent.username ++ ":" ++ sent.password = c.username ++ ":" ++ c.password)) := by
  refine ⟨fun v => ?carries, ofBytes?_header, ?own, fun husername sent => ?others⟩
  case carries => rw [accepts_some_iff, ofHeader?_eq_some_iff]
  case own => rw [accepts_headerValue, and_iff_left rfl]
  case others => rw [accepts_headerValue, and_iff_right husername]

/-- A password with colons, and a client that puts the first of them into the name. -/
theorem accepts_iff_colons :
    ':' ∉ "é".toList ∧
      accepts ⟨"é", ":p:"⟩ (some (headerValue ⟨"é:", "p:"⟩)) = true ∧
        accepts ⟨"é", ":p:"⟩ (some (headerValue ⟨"é", "p:"⟩)) = false := by
  obtain ⟨-, -, -, hothers⟩ := accepts_iff ⟨"é", ":p:"⟩
  have hname : ':' ∉ "é".toList := by decide
  refine ⟨hname, (hothers hname ⟨"é:", "p:"⟩).2 (by decide), ?_⟩
  rw [← Bool.not_eq_true, hothers hname ⟨"é", "p:"⟩]
  decide

end Credentials

end ChatRelay.Http
