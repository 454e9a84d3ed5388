/-
# `SeededPlay.Proofs.SeedCode.Variants` — codes as players type them

A code may be typed in small letters and with white space around it (`IsVariant`).  All
variants of a well-formed code are read alike, since trimming and upper case give the code
itself back (`Parts.upperChars_variant`).

What is read is enough to write the code again (`encode_decode`): every table can be read
backwards, the level of a digit has that digit, and the symbols of a segment are the digits
of its seed, leading zeros included.

White space around a text makes no difference once it is trimmed (`trimWhere_around`), and
texts are read alike if they are the same trimmed and in upper case (`decode_congr`).  A
character whose ASCII capital may stand in a code is an ASCII character and no blank, so
nothing of a variant is lost at its ends.

What the choices have to say to be written as the code is `Says`: any choices that say it have
the heading of the code that was read, be they a record or a mapping, and the choices that the
code stands for say it (`says_ofRecovered`).
-/
import SeededPlay.Proofs.SeedCode.Spelling
import SeededPlay.Proofs.SeedCode.Total

namespace SeededPlay

namespace Text

theorem trimWhere_around {p : Char → Bool} {before after : List Char}
    (hbefore : ∀ c ∈ before, p c = true) (hafter : ∀ c ∈ after, p c = true) (cs : List Char) :
    trimWhere p (before ++ cs ++ after) = trimWhere p cs := by
  unfold trimWhere
  rw [List.append_assoc, List.dropWhile_append_of_pos hbefore, List.dropWhile_append]
  split
  · rename_i hempty
    rw [List.isEmpty_iff.mp hempty, List.dropWhile_eq_nil_iff.mpr hafter]
  · rw [List.reverse_append,
      List.dropWhile_append_of_pos fun c hc => hafter c (List.mem_reverse.mp hc)]

end Text

namespace SeedCode

open Text

/-! ## Variants -/

/-- The same text but for the case of its ASCII letters and for white space around it. -/
def IsVariant (code s : String) : Prop :=
  ∃ before body after, s.toList = before ++ body ++ after ∧
    (∀ c ∈ before, isBlank c = true) ∧ (∀ c ∈ after, isBlank c = true) ∧
    body.map Char.toUpper = code.toList.map Char.toUpper

theorem IsVariant.refl (code : String) : IsVariant code code :=
  ⟨[], code.toList, [], (List.append_nil _).symm, nofun, nofun, rfl⟩

theorem decode_congr {s t : String}
    (h : upperChars (trimChars s.toList) = upperChars (trimChars t.toList)) :
    decode s = decode t := by
  unfold decode
  rw [h]

theorem ascii_of_isCodeChar_toUpper {c : Char} (h : isCodeChar c.toUpper = true) :
    c.toNat < 128 ∧ isBlank c = false := by
  have hascii : c.toNat < 128 := by
    by_contra hlarge
    rw [toUpper_eq_self (by omega)] at h
    exact hlarge (toNat_of_isCodeChar h)
  exact ⟨hascii, forall_ascii (p := fun c => isCodeChar c.toUpper = true → isBlank c = false)
    (by decide +kernel) hascii h⟩

theorem toUpper_of_isCodeChar {c : Char} (h : isCodeChar c = true) : c.toUpper = c :=
  forall_ascii (p := fun c => isCodeChar c = true → c.toUpper = c) (by decide +kernel)
    (toNat_of_isCodeChar h) h

namespace Parts

theorem map_toUpper_text (p : Parts) : p.text.toList.map Char.toUpper = p.text.toList := by
  rw [List.map_congr_left fun c hc => toUpper_of_isCodeChar (p.isCodeChar_text c hc), List.map_id']

theorem upperChars_variant (p : Parts) {s : String} (h : IsVariant p.text s) :
    upperChars (trimChars s.toList) = p.text.toList := by
  obtain ⟨before, body, after, hs, hbefore, hafter, hbody⟩ := h
  rw [p.map_toUpper_text] at hbody
  have hascii : ∀ c ∈ body, c.toNat < 128 ∧ isBlank c = false := by
    intro c hc
    refine ascii_of_isCodeChar_toUpper (p.isCodeChar_text _ ?_)
    rw [← hbody]
    exact List.mem_map_of_mem hc
  have htrim : trimChars s.toList = body := by
    unfold trimChars
    rw [hs, trimWhere_around hbefore hafter, trimWhere_eq_self fun c hc => (hascii c hc).2]
  rw [htrim, ← hbody]
  unfold upperChars
  rw [List.flatMap_congr fun c hc => upperChar_of_lt (hascii c hc).1, List.map_eq_flatMap]

/-- Variants of a code are read as the code. -/
theorem decode_variant (p : Parts) {s : String} (h : IsVariant p.text s) :
    decode s = decode p.text :=
  decode_congr ((p.upperChars_variant h).trans (p.upperChars_variant (.refl _)).symm)

end Parts

end SeedCode

/-! ## Writing what was read -/

namespace Choices

open SeedCode

/-- Choices with the leading verb, the gravity, the world and the level that were read. -/
structure Says (c : Choices) (r : Recovered) : Prop where
  verb : c.verbs.head? = r.verb
  gravity : some c.gravity = r.gravity
  world : some c.world = r.world.map WorldMark.word
  chaos : c.chaos.value = r.chaos

theorem Says.heading {c : Choices} {p : Parts} (h : c.Says (decode p.text)) :
    c.heading = p.heading := by
  obtain ⟨hverb, hgravity, hworld, hchaos⟩ := h
  rw [p.decode_text] at hverb hgravity hworld hchaos
  have hchaos : c.chaos.value = 11 * p.digit := hchaos
  have hdigit : c.chaos.digit = p.digit := by
    have hle := p.digit_le
    rw [ChaosLevel.digit_eq, hchaos]
    omega
  have hmark : WorldMark.ofText c.world = p.world := by
    rw [Option.some.inj hworld, WorldMark.ofText_word]
  unfold Choices.heading Parts.heading
  rw [hverb, Option.some.inj hgravity, hmark, hdigit, Option.getD_some]

theorem says_ofRecovered (p : Parts) : (ofRecovered (decode p.text)).Says (decode p.text) := by
  have hmost : 11 * p.digit ≤ 100 := by
    have hle := p.digit_le
    omega
  rw [p.decode_text]
  exact ⟨rfl, rfl, rfl, ChaosLevel.value_clamp hmost⟩

end Choices

namespace SeedCode

/-- A well-formed code may be typed in any case and with white space around it, it is read
alike; and what was read, written again, is the code.  That goes for all choices with the
verb, the gravity, the world and the level that were read, whether they come as a record or
as a mapping of their values, and the choices that the code stands for are among them. -/
theorem encode_decode (p : Parts) {s : String} (hs : IsVariant p.text s) :
    decode s = decode p.text ∧
      (Choices.ofRecovered (decode s)).Says (decode s) ∧
      ∀ c : Choices, c.Says (decode s) →
        encode c.heading (.int (decode s).seed) = .ok p.text ∧
        ∀ fields, c.Given fields →
          encode (.ofDatum (.record fields)) (.int (decode s).seed) = .ok p.text := by
  rw [p.decode_variant hs]
  refine ⟨rfl, Choices.says_ofRecovered p, fun c hsame => ?_⟩
  obtain ⟨htext, hseed⟩ := p.text_eq_write
  have hencode : encode c.heading (.int (decode p.text).seed) = .ok p.text := by
    rw [hsame.heading, p.decode_text]
    unfold encode
    rw [normalizeSeed_of_lt hseed]
    exact congrArg Except.ok htext.symm
  refine ⟨hencode, fun fields hgiven => ?_⟩
  rw [hgiven.heading]
  exact hencode

/-- The parts of `DASH-RVRS-TIME7-K3P9`. -/
def reversedDash : Parts where
  verb := .dash
  gravity := .reverse
  world := .known .timeUneven
  digit := 7
  digit_le := by decide
  symbols := ['K', '3', 'P', '9']
  length_symbols := rfl
  known _ hc := List.contains_iff_mem.mp (List.all_eq_true.mp
    (by decide : ['K', '3', 'P', '9'].all alphabet.contains = true) _ hc)

theorem encode_decode_typed :
    let s := "\tdAsH-rvrs-tIME7-k3p9\r\n"
    IsVariant reversedDash.text s ∧ decode s = decode "DASH-RVRS-TIME7-K3P9" ∧
      encode (.ofDatum (.record [("verbs", .list [.text "dash"]), ("gravity", .text "reverse"),
        ("world_difference", .text "time_uneven"), ("chaos_level", .int 77)]))
        (.int (decode s).seed) = .ok "DASH-RVRS-TIME7-K3P9" := by
  intro s
  have htext : reversedDash.text = "DASH-RVRS-TIME7-K3P9" := by decide +kernel
  have hs : IsVariant reversedDash.text s := by
    rw [htext]
    refine ⟨['\t'], "dAsH-rvrs-tIME7-k3p9".toList, ['\r', '\n'], by decide +kernel, ?_, ?_,
      by decide +kernel⟩
    · exact List.all_eq_true.mp (by decide)
    · exact List.all_eq_true.mp (by decide)
  obtain ⟨hread, hsame, hwrite⟩ := encode_decode reversedDash hs
  have hgiven : (Choices.ofRecovered (decode s)).Given
      [("verbs", .list [.text "dash"]), ("gravity", .text "reverse"),
        ("world_difference", .text "time_uneven"), ("chaos_level", .int 77)] := by
    rw [hread, reversedDash.decode_text]
    exact ⟨rfl, rfl, rfl, rfl⟩
  refine ⟨hs, htext ▸ hread, ?_⟩
  rw [(hwrite _ hsame).2 _ hgiven, htext]

end SeedCode

end SeededPlay
