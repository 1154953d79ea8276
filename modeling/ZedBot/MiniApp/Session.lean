import ZedBot.Base64
import ZedBot.MiniApp.InitData
import ZedBot.Utf8
import Mathlib.Data.Rat.Floor

/-! # The session of the Mini App

    A token names a user and an instant, under a signature; the browser sends it back among its
    cookies. No field holds a dot, so that the signed text can be taken apart in one way only.

        v1 . base64url(user id) . expiry . base64url(signature)
        └────────── signed ───────────┘ -/

namespace ZedBot.MiniApp

def MINIAPP_SESSION_VERSION : Text := "v1".toList
def MINIAPP_SESSION_COOKIE_NAME : Text := "zb_miniapp".toList
def MINIAPP_SESSION_MIN_TTL_SECONDS : ℤ := 60
def MINIAPP_SESSION_MAX_TTL_SECONDS : ℤ := 60 * 60

/-- The latest instant of a `Date`, in milliseconds. -/
def MAX_DATE_MS : ℕ := 8640000000000000

/-- `HMAC_SHA256` under the session key. -/
abbrev SessionMac := Text → List UInt8

inductive MiniAppSessionFailure where
  | MALFORMED
  | UNKNOWN_VERSION
  | BAD_SIGNATURE
  | EXPIRED
  deriving DecidableEq

structure MiniAppSessionPayload where
  userId : Text
  expiresAtSeconds : ℕ
  deriving DecidableEq

/-- What a token is issued for. -/
structure Issue where
  userId : Text
  ttlSeconds : ℚ
  nowMs : ℕ

/-- The lifetime in seconds, within its bounds. -/
def clampTtl (ttlSeconds : ℚ) : ℕ :=
  (min (max ⌊ttlSeconds⌋ MINIAPP_SESSION_MIN_TTL_SECONDS) MINIAPP_SESSION_MAX_TTL_SECONDS).toNat

def Issue.expiresAt (i : Issue) : ℕ := i.nowMs / 1000 + clampTtl i.ttlSeconds

def Issue.encodedUserId (i : Issue) : Text := Base64.encode .base64url (Utf8.encode i.userId)

/-- The text that is signed. -/
def Issue.body (i : Issue) : Text :=
  MINIAPP_SESSION_VERSION ++ '.' :: (i.encodedUserId ++ '.' :: Nat.toDigits 10 i.expiresAt)

variable (mac : SessionMac)

def sign (body : Text) : Text := Base64.encode .base64url (mac body)

def issueMiniAppSession (i : Issue) : Text := i.body ++ '.' :: sign mac i.body

/-- `/^\d{1,15}$/`. -/
def isExpiry (raw : Text) : Bool := raw.all Json.isDigit && 1 ≤ raw.length && raw.length ≤ 15

def verifyMiniAppSession (token : Text) (nowMs : ℕ) :
    Except MiniAppSessionFailure MiniAppSessionPayload :=
  if token = [] then .error .MALFORMED
  else
    match TextLines.lines '.' token with
    | [version, encodedUserId, rawExpiry, signature] =>
      if version ≠ MINIAPP_SESSION_VERSION then .error .UNKNOWN_VERSION
      else if !isExpiry rawExpiry then .error .MALFORMED
      else if Utf8.encode signature ≠
          Utf8.encode (sign mac (version ++ '.' :: (encodedUserId ++ '.' :: rawExpiry))) then
        .error .BAD_SIGNATURE
      else if !isSafeInteger (digitsToNat rawExpiry) then .error .MALFORMED
      else if digitsToNat rawExpiry ≤ nowMs / 1000 then .error .EXPIRED
      else
        let userId := Utf8.decode (Base64.decode encodedUserId)
        if userId = [] then .error .MALFORMED
        else .ok { userId, expiresAtSeconds := digitsToNat rawExpiry }
    | _ => .error .MALFORMED

/-- A chunk of the header with its name and value, if it has a name. -/
def cookiePair (chunk : Text) : Option (Text × Text) :=
  match chunk.takeWhile (· ≠ '='), chunk.dropWhile (· ≠ '=') with
  | [], _ | _, [] => none
  | name, _ :: value => some (TextLines.trim isJsSpace name, TextLines.trim isJsSpace value)

def readMiniAppSessionCookie (header : Text) : Option Text :=
  if header = [] then none
  else
    (((TextLines.lines ';' header).filterMap cookiePair).find?
      (·.1 = MINIAPP_SESSION_COOKIE_NAME)).map Prod.snd

/-- Who a request comes from. -/
def sessionOf (header : Text) (nowMs : ℕ) : Option MiniAppSessionPayload :=
  match readMiniAppSessionCookie header with
  | none | some [] => none
  | some raw => (verifyMiniAppSession mac raw nowMs).toOption

variable {mac} {token header body : Text} {nowMs : ℕ} {p : MiniAppSessionPayload} {i : Issue}
  {issued : Issue → Prop}

/-! ### The fields -/

theorem digitsToNat_toDigits (n : ℕ) : digitsToNat (Nat.toDigits 10 n) = n :=
  Nat.ofDigitChars_toDigits (by decide) (by decide)

theorem url_no_dot (bs : List UInt8) : '.' ∉ Base64.encode .base64url bs := fun h =>
  absurd (Base64.isUrlLetter_of_mem h) (by decide)

theorem isDigit_toDigits {n : ℕ} {c : Char} (h : c ∈ Nat.toDigits 10 n) :
    Json.isDigit c = true := by
  have hdigit := Nat.isDigit_of_mem_toDigits (by decide) (by decide) h
  rw [Char.isDigit, Bool.and_eq_true, decide_eq_true_eq, decide_eq_true_eq] at hdigit
  exact decide_eq_true hdigit

theorem digits_no_dot (n : ℕ) : '.' ∉ Nat.toDigits 10 n := fun h =>
  absurd (isDigit_toDigits h) (by decide)

/-- A token is the four fields of which it is made. -/
theorem lines_token {version encodedUserId rawExpiry signature : Text} (hversion : '.' ∉ version)
    (huser : '.' ∉ encodedUserId) (hexpiry : '.' ∉ rawExpiry) (hsignature : '.' ∉ signature) :
    TextLines.lines '.' (version ++ '.' :: (encodedUserId ++ '.' :: rawExpiry) ++
      '.' :: signature) = [version, encodedUserId, rawExpiry, signature] := by
  rw [TextLines.lines_append, TextLines.lines_append, TextLines.lines_append,
    TextLines.lines_of_notMem hversion, TextLines.lines_of_notMem huser,
    TextLines.lines_of_notMem hexpiry, TextLines.lines_of_notMem hsignature]
  rfl

theorem token_of_lines {version encodedUserId rawExpiry signature : Text}
    (h : TextLines.lines '.' token = [version, encodedUserId, rawExpiry, signature]) :
    token = version ++ '.' :: (encodedUserId ++ '.' :: rawExpiry) ++ '.' :: signature := by
  rw [← TextLines.join_lines '.' token, h, TextLines.join]
  simp [List.intercalate]

theorem lines_issued (i : Issue) : TextLines.lines '.' (issueMiniAppSession mac i) =
    [MINIAPP_SESSION_VERSION, i.encodedUserId, Nat.toDigits 10 i.expiresAt, sign mac i.body] :=
  lines_token (by decide) (url_no_dot _) (digits_no_dot _) (url_no_dot _)

theorem clampTtl_le (ttlSeconds : ℚ) : clampTtl ttlSeconds ≤ 3600 :=
  Int.toNat_le.mpr (min_le_right _ _)

theorem expiresAt_lt (h : i.nowMs ≤ MAX_DATE_MS) : i.expiresAt < 10 ^ 15 := by
  have hclamp := clampTtl_le i.ttlSeconds
  have hmax : i.nowMs ≤ 8640000000000000 := h
  rw [Issue.expiresAt]
  omega

theorem isExpiry_toDigits {n : ℕ} (h : n < 10 ^ 15) : isExpiry (Nat.toDigits 10 n) = true := by
  have hlength := (Nat.length_toDigits_le_iff (b := 10) (n := n) (k := 15) (by decide)
    (by decide)).mpr h
  have hpos : 1 ≤ (Nat.toDigits 10 n).length := Nat.length_toDigits_pos
  rw [isExpiry, List.all_eq_true.mpr fun c hc => isDigit_toDigits hc, decide_eq_true hpos,
    decide_eq_true hlength]
  rfl

/-! ### Verifying -/

/-- What a token that is accepted is made of. -/
theorem verified (h : verifyMiniAppSession mac token nowMs = .ok p) :
    ∃ encodedUserId rawExpiry,
      token = MINIAPP_SESSION_VERSION ++ '.' :: (encodedUserId ++ '.' :: rawExpiry) ++
        '.' :: sign mac (MINIAPP_SESSION_VERSION ++ '.' :: (encodedUserId ++ '.' :: rawExpiry)) ∧
      '.' ∉ encodedUserId ∧ '.' ∉ rawExpiry ∧
      p = ⟨Utf8.decode (Base64.decode encodedUserId), digitsToNat rawExpiry⟩ ∧
      nowMs / 1000 < p.expiresAtSeconds ∧ p.userId ≠ [] := by
  rw [verifyMiniAppSession] at h
  split_ifs at h with hempty
  split at h
  · rename_i version encodedUserId rawExpiry signature hlines
    dsimp only at h
    split_ifs at h with hversion hexpiry hsign hsafe hover huser
    obtain rfl := Except.ok.inj h
    have hversion := not_not.mp hversion
    subst hversion
    have hsign := Utf8.encode_inj (not_not.mp hsign)
    subst hsign
    have hdots : ∀ l ∈ TextLines.lines '.' token, '.' ∉ l :=
      fun l hl => TextLines.notMem_of_mem_lines hl
    rw [hlines] at hdots
    exact ⟨encodedUserId, rawExpiry, token_of_lines hlines, hdots _ (by simp), hdots _ (by simp),
      rfl, Nat.lt_of_not_le hover, huser⟩
  · cases h

/-- A token is accepted until it expires. -/
theorem verify_issued (hdate : i.nowMs ≤ MAX_DATE_MS) (huser : i.userId ≠ [])
    (hlive : nowMs / 1000 < i.expiresAt) :
    verifyMiniAppSession mac (issueMiniAppSession mac i) nowMs = .ok ⟨i.userId, i.expiresAt⟩ := by
  have hne : issueMiniAppSession mac i ≠ [] := by
    rw [issueMiniAppSession]
    exact List.append_ne_nil_of_right_ne_nil _ (List.cons_ne_nil _ _)
  have hlt := expiresAt_lt hdate
  have hsafe : isSafeInteger (i.expiresAt : ℤ) = true := by
    refine decide_eq_true ⟨by omega, ?_⟩
    have hbound : (10 : ℕ) ^ 15 ≤ 9007199254740991 := by decide
    omega
  have hread : Utf8.decode (Base64.decode i.encodedUserId) = i.userId := by
    rw [Issue.encodedUserId, Base64.decode_encode, Utf8.decode_encode]
  have hsign : Utf8.encode (sign mac i.body) = Utf8.encode (sign mac (MINIAPP_SESSION_VERSION ++
      '.' :: (i.encodedUserId ++ '.' :: Nat.toDigits 10 i.expiresAt))) := rfl
  rw [verifyMiniAppSession, if_neg hne, lines_issued]
  dsimp only
  rw [if_neg (not_not_intro rfl), isExpiry_toDigits hlt, digitsToNat_toDigits, hsafe, hread,
    if_neg (by decide), if_neg (not_not_intro hsign), if_neg (by decide),
    if_neg (Nat.not_le.mpr hlive), if_neg huser]

/-- The fields of a signed text are those that were put in. -/
theorem body_inj {encodedUserId rawExpiry : Text} (huser : '.' ∉ encodedUserId)
    (hexpiry : '.' ∉ rawExpiry)
    (h : MINIAPP_SESSION_VERSION ++ '.' :: (encodedUserId ++ '.' :: rawExpiry) = i.body) :
    encodedUserId = i.encodedUserId ∧ rawExpiry = Nat.toDigits 10 i.expiresAt := by
  have hlines := (lines_token (by decide) huser hexpiry (List.not_mem_nil (a := '.'))).symm.trans
    ((congrArg (fun t => TextLines.lines '.' (t ++ ['.'])) h).trans
      (lines_token (by decide) (url_no_dot _) (digits_no_dot _) (List.not_mem_nil (a := '.'))))
  injection hlines with _ hlines
  injection hlines with huser hlines
  injection hlines with hexpiry _
  exact ⟨huser, hexpiry⟩

/-- Whoever cannot sign is accepted with an issued token only, as the user it was issued to, and
    until it expires. -/
theorem verify_iff (hdate : ∀ i, issued i → i.nowMs ≤ MAX_DATE_MS)
    (hforge : ∀ body, token = body ++ '.' :: sign mac body → ∃ i, issued i ∧ body = i.body) :
    verifyMiniAppSession mac token nowMs = .ok p ↔
      ∃ i, issued i ∧ token = issueMiniAppSession mac i ∧ p = ⟨i.userId, i.expiresAt⟩ ∧
        i.userId ≠ [] ∧ nowMs / 1000 < i.expiresAt := by
  constructor
  · intro h
    obtain ⟨encodedUserId, rawExpiry, htoken, huserDot, hexpiryDot, rfl, hlive, hne⟩ := verified h
    obtain ⟨i, hi, hbody⟩ := hforge _ htoken
    obtain ⟨rfl, rfl⟩ := body_inj huserDot hexpiryDot hbody
    rw [digitsToNat_toDigits] at hlive
    rw [Issue.encodedUserId, Base64.decode_encode, Utf8.decode_encode] at hne ⊢
    rw [digitsToNat_toDigits]
    refine ⟨i, hi, ?_, rfl, hne, hlive⟩
    rw [htoken, hbody]
    rfl
  · rintro ⟨i, hi, rfl, rfl, huser, hlive⟩
    exact verify_issued (hdate i hi) huser hlive

/-! ### The cookie -/

/-- A letter of a token is no separator of a header, and no space. -/
structure Plain (token : Text) : Prop where
  space : ∀ c ∈ token, isJsSpace c = false
  semicolon : ';' ∉ token

theorem url_plain {c : Char} (h : Base64.isUrlLetter c = true) :
    isJsSpace c = false ∧ c ≠ ';' := by
  simp only [Base64.isUrlLetter, decide_eq_true_eq] at h
  have hnat : (65 ≤ c.toNat ∧ c.toNat ≤ 90) ∨ (97 ≤ c.toNat ∧ c.toNat ≤ 122) ∨
      (48 ≤ c.toNat ∧ c.toNat ≤ 57) ∨ c.toNat = 95 ∨ c.toNat = 45 :=
    h.imp id (Or.imp id (Or.imp id (Or.imp (congrArg Char.toNat) (congrArg Char.toNat))))
  constructor
  · refine decide_eq_false ?_
    simp only [List.mem_cons, List.not_mem_nil, or_false]
    omega
  · rintro rfl
    revert hnat
    decide

theorem plain_url (bs : List UInt8) : Plain (Base64.encode .base64url bs) :=
  ⟨fun _ hc => (url_plain (Base64.isUrlLetter_of_mem hc)).1,
    fun hc => (url_plain (Base64.isUrlLetter_of_mem hc)).2 rfl⟩

theorem plain_digits (n : ℕ) : Plain (Nat.toDigits 10 n) := by
  have hurl : ∀ c ∈ Nat.toDigits 10 n, Base64.isUrlLetter c = true := fun c hc =>
    decide_eq_true (.inr (.inr (.inl (of_decide_eq_true (isDigit_toDigits hc)))))
  exact ⟨fun c hc => (url_plain (hurl c hc)).1, fun hc => (url_plain (hurl _ hc)).2 rfl⟩

theorem Plain.dot {t u : Text} (ht : Plain t) (hu : Plain u) : Plain (t ++ '.' :: u) := by
  have hdot : isJsSpace '.' = false := by decide
  refine ⟨fun c hc => ?_, fun hc => ?_⟩
  · rcases List.mem_append.mp hc with hc | hc
    · exact ht.space c hc
    · rcases List.mem_cons.mp hc with rfl | hc
      · exact hdot
      · exact hu.space c hc
  · rcases List.mem_append.mp hc with hc | hc
    · exact ht.semicolon hc
    · rcases List.mem_cons.mp hc with hc | hc
      · exact absurd hc (by decide)
      · exact hu.semicolon hc

theorem plain_issued (mac : SessionMac) (i : Issue) : Plain (issueMiniAppSession mac i) := by
  have hspace : (MINIAPP_SESSION_VERSION.all fun c => !isJsSpace c) = true := by decide
  have hversion : Plain MINIAPP_SESSION_VERSION :=
    ⟨fun c hc => Bool.not_eq_true' _ |>.mp (List.all_eq_true.mp hspace c hc), by decide⟩
  exact (hversion.dot ((plain_url _).dot (plain_digits _))).dot (plain_url _)

theorem trim_plain (h : Plain token) : TextLines.trim isJsSpace token = token :=
  TextLines.trim_eq_self (fun c hc => h.space c (List.mem_of_mem_head? hc))
    fun c hc => h.space c (List.mem_of_mem_getLast? hc)

/-- A chunk as a browser writes it. -/
def cookieChunk (pad token : Text) : Text := pad ++ MINIAPP_SESSION_COOKIE_NAME ++ '=' :: token

theorem cookiePair_chunk {pad : Text} (hpad : ∀ c ∈ pad, c = ' ') (h : Plain token) :
    cookiePair (cookieChunk pad token) = some (MINIAPP_SESSION_COOKIE_NAME, token) := by
  have hletters : (MINIAPP_SESSION_COOKIE_NAME.all fun c => decide (c ≠ '=')) = true := by decide
  have hname : ∀ c ∈ pad ++ MINIAPP_SESSION_COOKIE_NAME, decide (c ≠ '=') = true := by
    intro c hc
    rcases List.mem_append.mp hc with hc | hc
    · rw [hpad c hc]
      decide
    · exact List.all_eq_true.mp hletters c hc
  have htake : (cookieChunk pad token).takeWhile (· ≠ '=') = pad ++ MINIAPP_SESSION_COOKIE_NAME :=
    (List.takeWhile_append_of_pos hname).trans (List.append_nil _)
  have hdrop : (cookieChunk pad token).dropWhile (· ≠ '=') = '=' :: token :=
    List.dropWhile_append_of_pos hname
  have hspace : ∀ c ∈ pad, isJsSpace c = true := fun c hc => by
    rw [hpad c hc]
    decide
  have htrim : TextLines.trim isJsSpace (pad ++ MINIAPP_SESSION_COOKIE_NAME) =
      MINIAPP_SESSION_COOKIE_NAME := by
    have hnone : ∀ c ∈ ([] : Text), isJsSpace c = true := by
      rintro c ⟨⟩
    have haround := TextLines.trim_around hspace hnone MINIAPP_SESSION_COOKIE_NAME
    rw [List.append_nil] at haround
    rw [haround]
    decide +kernel
  have hne : pad ++ MINIAPP_SESSION_COOKIE_NAME ≠ [] :=
    List.append_ne_nil_of_right_ne_nil _ (by decide)
  obtain ⟨c, name, hcons⟩ := List.exists_cons_of_ne_nil hne
  rw [cookiePair, htake, hdrop, hcons]
  change some (TextLines.trim isJsSpace (c :: name), TextLines.trim isJsSpace token) = _
  rw [← hcons, htrim, trim_plain h]

/-- The token is found among other cookies, before and behind it. -/
theorem read_cookie {pad : Text} {before after : List Text} (hpad : ∀ c ∈ pad, c = ' ')
    (h : Plain token) (hbefore : ∀ chunk ∈ before, ';' ∉ chunk ∧
      ∀ pair ∈ cookiePair chunk, pair.1 ≠ MINIAPP_SESSION_COOKIE_NAME)
    (hafter : ∀ chunk ∈ after, ';' ∉ chunk) :
    readMiniAppSessionCookie
      (TextLines.join ';' (before ++ cookieChunk pad token :: after)) = some token := by
  have hown : ';' ∉ cookieChunk pad token := by
    intro hmem
    rcases List.mem_append.mp hmem with hmem | hmem
    · rcases List.mem_append.mp hmem with hmem | hmem
      · exact absurd (hpad _ hmem) (by decide)
      · exact absurd hmem (by decide)
    · rcases List.mem_cons.mp hmem with hmem | hmem
      · exact absurd hmem (by decide)
      · exact h.semicolon hmem
  have hchunks : ∀ chunk ∈ before ++ cookieChunk pad token :: after, ';' ∉ chunk := by
    intro chunk hchunk
    rcases List.mem_append.mp hchunk with hchunk | hchunk
    · exact (hbefore chunk hchunk).1
    · rcases List.mem_cons.mp hchunk with rfl | hchunk
      · exact hown
      · exact hafter chunk hchunk
  have hlines := TextLines.lines_join_of_notMem hchunks
    (List.append_ne_nil_of_right_ne_nil _ (List.cons_ne_nil _ _))
  have hne : TextLines.join ';' (before ++ cookieChunk pad token :: after) ≠ [] := by
    intro hnil
    have hmem : '=' ∈ TextLines.join ';' (before ++ cookieChunk pad token :: after) :=
      TextLines.mem_join (List.mem_append_right _ (.head _))
        (List.mem_append_right _ (.head _))
    rw [hnil] at hmem
    cases hmem
  have hnone : (before.filterMap cookiePair).find?
      (fun pair => pair.1 = MINIAPP_SESSION_COOKIE_NAME) = none := by
    refine List.find?_eq_none.mpr fun pair hpair => ?_
    obtain ⟨chunk, hchunk, heq⟩ := List.mem_filterMap.mp hpair
    exact fun hdec => (hbefore chunk hchunk).2 pair heq (of_decide_eq_true hdec)
  rw [readMiniAppSessionCookie, if_neg hne, hlines, List.filterMap_append, List.find?_append, hnone,
    Option.none_or, List.filterMap_cons_some (cookiePair_chunk hpad h)]
  exact congrArg (Option.map Prod.snd) (List.find?_cons_of_pos (decide_eq_true rfl))

/-- A request is its user's exactly as long as its cookie is a live token that was issued to the
    user; and the cookie survives among whatever others the browser sends. -/
theorem request_is_the_issued_user (hdate : ∀ i, issued i → i.nowMs ≤ MAX_DATE_MS)
    (hforge : ∀ body, readMiniAppSessionCookie header = some (body ++ '.' :: sign mac body) →
      ∃ i, issued i ∧ body = i.body) :
    (sessionOf mac header nowMs = some p ↔
      ∃ i, issued i ∧ readMiniAppSessionCookie header = some (issueMiniAppSession mac i) ∧
        p = ⟨i.userId, i.expiresAt⟩ ∧ i.userId ≠ [] ∧ nowMs / 1000 < i.expiresAt) ∧
    ∀ i, issued i → i.userId ≠ [] → nowMs / 1000 < i.expiresAt →
      ∀ (pad : Text) (before after : List Text), (∀ c ∈ pad, c = ' ') →
        (∀ chunk ∈ before, ';' ∉ chunk ∧
          ∀ pair ∈ cookiePair chunk, pair.1 ≠ MINIAPP_SESSION_COOKIE_NAME) →
        (∀ chunk ∈ after, ';' ∉ chunk) →
        sessionOf mac (TextLines.join ';' (before ++
          cookieChunk pad (issueMiniAppSession mac i) :: after)) nowMs =
          some ⟨i.userId, i.expiresAt⟩ := by
  have hne : ∀ i, issueMiniAppSession mac i ≠ [] := fun i =>
    List.append_ne_nil_of_right_ne_nil _ (List.cons_ne_nil _ _)
  have hread : ∀ {header : Text} {token : Text}, token ≠ [] →
      readMiniAppSessionCookie header = some token →
      sessionOf mac header nowMs = (verifyMiniAppSession mac token nowMs).toOption := by
    intro header token htoken hcookie
    obtain ⟨c, cs, rfl⟩ := List.exists_cons_of_ne_nil htoken
    rw [sessionOf, hcookie]
  refine ⟨⟨fun h => ?_, ?_⟩, fun i hi huser hlive pad before after hpad hbefore hafter => ?_⟩
  · rw [sessionOf] at h
    split at h
    · cases h
    · cases h
    · rename_i raw _ hcookie
      cases hverify : verifyMiniAppSession mac raw nowMs with
      | error reason =>
        rw [hverify] at h
        cases h
      | ok p' =>
        rw [hverify] at h
        obtain rfl := Option.some.inj h
        obtain ⟨i, hi, rfl, hrest⟩ := (verify_iff hdate fun body hbody =>
          hforge body (hbody ▸ hcookie)).mp hverify
        exact ⟨i, hi, hcookie, hrest⟩
  · rintro ⟨i, hi, hcookie, rfl, huser, hlive⟩
    rw [hread (hne i) hcookie, verify_issued (hdate i hi) huser hlive]
    rfl
  · rw [hread (hne i) (read_cookie hpad (plain_issued mac i) hbefore hafter),
      verify_issued (hdate i hi) huser hlive]
    rfl

/-- One sign-in, and a request with its cookie behind another. -/
def signIn : Issue := ⟨['u'], 900, 1000000⟩

def macSample : SessionMac := fun _ => [1, 2, 3]

def headerSample : Text :=
  TextLines.join ';' ([['a', '=', 'b']] ++
    cookieChunk [' '] (issueMiniAppSession macSample signIn) :: [])

theorem request_is_the_issued_user_sign_in :
    sessionOf macSample headerSample 1500000 = some ⟨['u'], 1900⟩ := by
  have hexpires : signIn.expiresAt = 1900 := by decide +kernel
  have hlive : 1500000 / 1000 < signIn.expiresAt := by
    rw [hexpires]
    decide
  have hcookie : readMiniAppSessionCookie headerSample =
      some (issueMiniAppSession macSample signIn) := by decide +kernel
  have hdate : ∀ i, i = signIn → i.nowMs ≤ MAX_DATE_MS := by
    rintro i rfl
    decide
  have hforge : ∀ body, readMiniAppSessionCookie headerSample =
      some (body ++ '.' :: sign macSample body) → ∃ i, i = signIn ∧ body = i.body := by
    intro body hbody
    rw [hcookie] at hbody
    exact ⟨signIn, rfl, (List.append_cancel_right (Option.some.inj hbody)).symm⟩
  rw [← hexpires]
  exact (request_is_the_issued_user hdate hforge).1.mpr
    ⟨signIn, rfl, hcookie, rfl, by decide, hlive⟩

end ZedBot.MiniApp
