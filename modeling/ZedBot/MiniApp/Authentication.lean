import ZedBot.MiniApp.CheckString
import ZedBot.MiniApp.TelegramId
import Mathlib.Algebra.BigOperators.Group.List.Basic

/-! # Who a Mini App caller is

    Whatever string is accepted under a signed hash names the signed user: the text of its user is
    the signed one, for what a cut could add to it is no JSON, and the instant is a value of digits,
    which no cut reaches.

        accepted ──▶ same check string ──▶ same user text ──▶ same id, same profile -/

namespace ZedBot.MiniApp

variable {hmac : Hmac} {options : MiniAppInitDataOptions} {clock : ℤ} {initData initData' : Text}
  {pairs payload : Pairs} {r : MiniAppInitData}

/-- The hash that a string comes with. -/
def hashOf (initData : Text) : Option Text :=
  match parseStrict initData with
  | .ok pairs => get hashKey pairs
  | .error _ => none

/-- What has been checked of an accepted string. -/
structure Accepted (hmac : Hmac) (options : MiniAppInitDataOptions) (initData : Text)
    (r : MiniAppInitData) (pairs : Pairs) (hash rawAuthDate rawUser : Text) : Prop where
  parsed : parseStrict initData = .ok pairs
  hashed : get hashKey pairs = some hash
  authDate : get authDateKey pairs = some rawAuthDate
  seconds : readAuthDate rawAuthDate = some r.authDateSeconds
  user : get userKey pairs = some rawUser
  signed : fromHex hash = signature hmac options.botToken pairs
  payload : readPayload rawUser r.authDateSeconds = .ok r

theorem readPayload_seconds {rawUser : Text} {seconds : ℕ}
    (h : readPayload rawUser seconds = .ok r) : r.authDateSeconds = seconds := by
  unfold readPayload at h
  split at h
  · cases h
  · split at h
    · cases h
      rfl
    · cases h

/-- A check that was passed. -/
theorem passed {α : Type} {c : Prop} [Decidable c] {reason : MiniAppInitDataFailure}
    {next : Except MiniAppInitDataFailure α} {a : α}
    (h : (if c then .error reason else next) = .ok a) : ¬ c ∧ next = .ok a := by
  split_ifs at h with hc
  exact ⟨hc, h⟩

theorem accepted (h : validateMiniAppInitData hmac options clock initData = .ok r) :
    ∃ pairs hash rawAuthDate rawUser,
      Accepted hmac options initData r pairs hash rawAuthDate rawUser := by
  unfold validateMiniAppInitData at h
  obtain ⟨-, h⟩ := passed h
  obtain ⟨-, h⟩ := passed h
  split at h
  · cases h
  · rename_i pairs hparsed
    unfold validatePairs at h
    split at h
    · cases h
    · cases h
    · rename_i hash _ hhash
      obtain ⟨-, h⟩ := passed h
      split at h
      · cases h
      · cases h
      · rename_i rawAuthDate _ hauth
        split at h
        · cases h
        · rename_i seconds hseconds
          split at h
          · cases h
          · cases h
          · rename_i rawUser _ huser
            obtain ⟨hsigned, h⟩ := passed h
            obtain ⟨-, h⟩ := passed h
            obtain ⟨-, h⟩ := passed h
            obtain rfl := readPayload_seconds h
            exact ⟨pairs, hash, rawAuthDate, rawUser, hparsed, hhash, hauth, hseconds, huser,
              not_not.mp hsigned, h⟩

/-! ### Reordering -/

theorem byteLength_join (cs : List Text) (hne : cs ≠ []) :
    byteLength (TextLines.join '&' cs) + 1 = (cs.map fun c => byteLength c + 1).sum := by
  induction cs with
  | nil => exact absurd rfl hne
  | cons c cs ih =>
    cases cs with
    | nil => simp [TextLines.join, byteLength]
    | cons d cs =>
      have hsize : '&'.utf8Size = 1 := by decide
      have hjoin : TextLines.join '&' (c :: d :: cs) =
          c ++ '&' :: TextLines.join '&' (d :: cs) := by
        rw [TextLines.join, List.intercalate_cons_cons, ← TextLines.join, List.append_assoc,
          List.singleton_append]
      rw [List.map_cons, List.sum_cons, ← ih (List.cons_ne_nil d cs), hjoin]
      simp only [byteLength, List.map_append, List.map_cons, List.sum_append, List.sum_cons, hsize]
      omega

theorem byteLength_perm (h : (chunks initData).Perm (chunks initData')) :
    byteLength initData = byteLength initData' := by
  have hall : ∀ t : Text, byteLength t + 1 = ((chunks t).map fun c => byteLength c + 1).sum := by
    intro t
    rw [chunks, ← byteLength_join _ (TextLines.lines_ne_nil '&' t)]
    exact congrArg (fun t => byteLength t + 1) (TextLines.join_lines '&' t).symm
  have hsum := (h.map fun c => byteLength c + 1).sum_eq
  rw [← hall, ← hall] at hsum
  exact Nat.succ.inj hsum

theorem ne_nil_of_perm (h : (chunks initData).Perm (chunks initData')) (hne : initData ≠ []) :
    initData' ≠ [] := by
  rintro rfl
  have hone : (chunks initData).Perm [[]] := h
  have hjoin := TextLines.join_lines '&' initData
  rw [← chunks, List.perm_singleton.mp hone] at hjoin
  exact hne hjoin.symm

theorem validatePairs_perm {pairs' : Pairs} (hnodup : (pairs.map Prod.fst).Nodup)
    (h : pairs.Perm pairs') :
    validatePairs hmac options clock pairs = validatePairs hmac options clock pairs' := by
  rw [validatePairs, validatePairs, get_perm hnodup h hashKey, get_perm hnodup h authDateKey,
    get_perm hnodup h userKey, signature, signature, check_perm hnodup h]

/-- The order of the pairs does not matter. -/
theorem accepted_perm (h : validateMiniAppInitData hmac options clock initData = .ok r)
    (hperm : (chunks initData).Perm (chunks initData')) :
    validateMiniAppInitData hmac options clock initData' = .ok r := by
  unfold validateMiniAppInitData at h ⊢
  obtain ⟨hempty, h⟩ := passed h
  obtain ⟨hlarge, h⟩ := passed h
  rw [byteLength_perm hperm] at hlarge
  rw [if_neg (ne_nil_of_perm hperm hempty), if_neg hlarge]
  split at h
  · cases h
  · rename_i pairs hparsed
    obtain ⟨pairs', hparsed', hpairs⟩ := parseStrict_perm hparsed hperm
    obtain ⟨-, -, hnodup⟩ := parseStrict_ok.mp hparsed
    rw [hparsed', ← h]
    exact (validatePairs_perm hnodup hpairs).symm

/-! ### Identity -/

theorem authDate_digits {rawAuthDate : Text} {seconds : ℕ}
    (h : readAuthDate rawAuthDate = some seconds) : '\n' ∉ rawAuthDate := by
  obtain ⟨⟨hdigits, -⟩, -⟩ := Option.ite_none_right_eq_some.mp h
  intro hmem
  exact absurd (List.all_eq_true.mp hdigits _ hmem) (by decide)

theorem userKey_ne_hash : userKey ≠ hashKey := by decide

/-- The text of an accepted user is the signed one. -/
theorem user_is_signed (hpayload : SignedPayload payload) {raw rawUser : Text} {literal : String}
    {source : List (String × Json)} {seconds : ℕ} (huser : (userKey, raw) ∈ payload)
    (hsigned : SignedUser raw literal source)
    (hcheck : buildBotTokenCheckString pairs = buildBotTokenCheckString payload)
    (hmem : (userKey, rawUser) ∈ pairs) (hread : readPayload rawUser seconds = .ok r) :
    rawUser = raw := by
  have hlines : signedLines payload ≠ [] :=
    List.ne_nil_of_mem (mem_signedLines.mpr ⟨_, huser, userKey_ne_hash, rfl⟩)
  have hkey : '=' ∉ userKey ∧ '\n' ∉ userKey := by decide
  have hsame : ∀ value, (userKey, value) ∈ payload → value = raw := fun value hvalue =>
    congrArg Prod.snd (List.inj_on_of_nodup_map hpayload.distinct hvalue huser rfl)
  by_cases hnewline : '\n' ∈ rawUser
  · obtain ⟨signed, rest, hvalue, rfl, hborder⟩ :=
      cut_of_newline hpayload hcheck hlines hmem (by decide) hkey hnewline
    obtain rfl := hsame signed hvalue
    unfold readPayload at hread
    split at hread
    · cases hread
    · split at hread
      · rename_i hparsed
        exact absurd (reads_of_parse hparsed) (Json.not_reads_after (reads_of_parse hsigned.parsed)
          ⟨'=', List.mem_cons_of_mem _ hborder, by decide⟩)
      · cases hread
  · exact hsame rawUser (mem_of_cut hpayload hcheck hlines hmem (by decide) hkey hnewline)

/-- A user whose first name looks like the key of an id. -/
def namedId : Text := "\x7b\"first_name\":\"id\",\"id\":7,\"is_bot\":false\x7d".toList

def namedIdMembers : List (String × Json) :=
  [("first_name", .string "id"), ("id", .number "7"), ("is_bot", .bool false)]

def namedIdPayload : Pairs := [(authDateKey, "1700000000".toList), (userKey, namedId)]

/-- A digest that tells one payload from all other texts. -/
def payloadHmac : Hmac := fun _ text =>
  if text = buildBotTokenCheckString namedIdPayload then List.replicate 32 0xAB else []

def payloadHash : Text := (List.replicate 32 "ab".toList).flatten

def namedIdInitData : Text :=
  "user=%7B%22first_name%22%3A%22id%22,%22id%22:7,%22is_bot%22:false%7D".toList ++
    "&auth_date=1700000000&hash=".toList ++ payloadHash

def atNoon : MiniAppInitDataOptions where
  botToken := "token".toList
  maxAgeSeconds := none
  nowSeconds := some 1700000100

theorem namedId_signed : SignedUser namedId "7" namedIdMembers where
  parsed := by rfl
  flat := by decide
  plain := by decide +kernel
  own := .tail _ (.head _)
  only := fun v hmem => by
    simpa [namedIdMembers] using hmem
  digits := List.all_eq_true.mp (by decide)
  positive := by decide

/-- The same pairs, the hash in front. -/
def namedIdReordered : Text :=
  "hash=".toList ++ payloadHash ++ "&auth_date=1700000000&".toList ++
    "user=%7B%22first_name%22%3A%22id%22,%22id%22:7,%22is_bot%22:false%7D".toList

end ZedBot.MiniApp
