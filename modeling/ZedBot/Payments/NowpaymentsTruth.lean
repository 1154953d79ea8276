import ZedBot.Payments.Nowpayments

/-! # What the signature of a callback covers

    Sorting makes one text of all orders of the members, and with finite numbers and no `__proto__`
    no other values share it; the event is the same for all of them.

        Reordered ⇒ one canonical text ⇒ one answer        one canonical text, plain ⇒ one event -/

namespace ZedBot.Payments

open Json (value get asString isObject toText Reordered objects numbers distinctKeys isProper
  isFiniteText isLiteral member)

variable {entries entries' : List (String × Json)} {v w : Json} {key : String} {hmac : Hmac}
  {body body' : String}

/-! ### One order -/

instance : IsTrans (String × Json) keyBefore where
  trans a b c hab hbc := by
    rw [keyBefore, List.not_lt] at *
    exact List.le_trans hab hbc

instance : Std.Total keyBefore where
  total a b := by
    rw [keyBefore, keyBefore, List.not_lt, List.not_lt]
    exact List.le_total _ _

theorem key_eq_of_before {a b : String × Json} (h : keyBefore a b) (h' : keyBefore b a) :
    a.1 = b.1 := by
  rw [keyBefore, List.not_lt] at h h'
  exact String.toList_injective (JsText.ofChars_inj (List.le_antisymm h h'))

/-- Sorting forgets in which order the members came. -/
theorem sortedMembers_eq (hnodup : (entries.map Prod.fst).Nodup) (h : entries.Perm entries') :
    sortedMembers entries = sortedMembers entries' := by
  refine List.Perm.eq_of_pairwise ?_ (List.pairwise_insertionSort _ _)
    (List.pairwise_insertionSort _ _) ?_
  · intro a b ha hb hab hba
    have ha' := (List.mem_filter.mp ((List.mem_insertionSort _).mp ha)).1
    have hb' := h.symm.subset (List.mem_filter.mp ((List.mem_insertionSort _).mp hb)).1
    exact List.inj_on_of_nodup_map hnodup ha' hb' (key_eq_of_before hab hba)
  · exact (List.perm_insertionSort _ _).trans
      ((h.filter _).trans (List.perm_insertionSort _ _).symm)

theorem sortKeysDeep_eq (h : Reordered v w) (hv : objects distinctKeys v = true) :
    sortKeysDeep v = sortKeysDeep w :=
  h.rebuild_eq hv fun _ _ => sortedMembers_eq

theorem canonical_reordered {t t' : Json} (h : Json.parse body = some t)
    (h' : Json.parse body' = some t') (hr : Reordered (value t) (value t')) :
    canonical body = canonical body' := by
  rw [canonical, canonical, h, h', Option.map_some, Option.map_some,
    sortKeysDeep_eq hr (Json.distinct_value t)]

theorem verify_eq {signature secret : String} (hne : body ≠ "") (hne' : body' ≠ "")
    (h : canonical body = canonical body') :
    verifyIpnSignature hmac body signature secret =
      verifyIpnSignature hmac body' signature secret := by
  rw [verifyIpnSignature, verifyIpnSignature, h]
  simp only [hne, hne', false_or]

theorem parsed_ne_empty {t : Json} (h : Json.parse body = some t) : body ≠ "" := by
  rintro rfl
  cases h

/-! ### Plain values -/

/-- No key `__proto__`. -/
def plainKeys (keys : List String) : Bool := "__proto__" ∉ keys

/-- No key `__proto__`, and no number beyond the doubles. -/
structure Plain (v : Json) : Prop where
  keys : objects plainKeys v = true
  finite : numbers isFiniteText v = true

theorem sortedMembers_perm (h : plainKeys (entries.map Prod.fst) = true) :
    (sortedMembers entries).Perm entries := by
  have hall : entries.filter (fun e => e.1 ≠ "__proto__") = entries := by
    refine List.filter_eq_self.mpr fun e he => decide_eq_true fun hkey => ?_
    exact of_decide_eq_true h (hkey ▸ List.mem_map_of_mem he)
  rw [sortedMembers, hall]
  exact List.perm_insertionSort _ _

theorem sortedMembers_subset (entries : List (String × Json)) :
    sortedMembers entries ⊆ entries := fun _ he =>
  (List.mem_filter.mp ((List.mem_insertionSort _).mp he)).1

theorem reordered_sortKeysDeep (h : objects plainKeys v = true) :
    Reordered v (sortKeysDeep v) :=
  Json.reordered_rebuild (q := fun _ => true) (fun _ _ => rfl) (fun _ => sortedMembers_perm) v
    (Json.numbers_all v) h

/-- Plain values with one canonical text are one up to order. -/
theorem reordered_of_canonical {t t' : Json} (hplain : Plain (value t)) (hplain' : Plain (value t'))
    (h : toText (sortKeysDeep (value t)) = toText (sortKeysDeep (value t'))) :
    ∃ u, Reordered (value t) u ∧ Reordered (value t') u := by
  have hliteral : ∀ t, Plain (value t) → numbers isLiteral (sortKeysDeep (value t)) = true :=
    fun t ht => Json.numbers_rebuild (fun _ hl => hl) sortedMembers_subset _
      (Json.literal_of_proper _ (Json.proper_value t) ht.finite)
  obtain ⟨u, hu, hu'⟩ := Json.reordered_of_toText (hliteral t hplain) (hliteral t' hplain') h
  exact ⟨u, (reordered_sortKeysDeep hplain.keys).trans hu,
    (reordered_sortKeysDeep hplain'.keys).trans hu'⟩

/-! ### One event -/

/-- A value inside an array. -/
def itemText (v : Json) : Option String :=
  match v with
  | .null => some ""
  | v => stringOf v

theorem stringOfItems_eq (items : List Json) : stringOfItems items = items.mapM itemText := by
  induction items with
  | nil => rfl
  | cons v vs ih =>
    cases v <;> simp only [stringOfItems, List.mapM_cons, ih, itemText] <;> rfl

theorem stringOf_array (items : List Json) :
    stringOf (.array items) = (items.mapM itemText).map (String.intercalate ",") := by
  rw [stringOf, stringOfItems_eq]

/-- A string of a value does not depend on the order of members. -/
theorem stringOf_eq (h : Reordered v w) : stringOf v = stringOf w ∧ itemText v = itemText w := by
  induction h with
  | refl => exact ⟨rfl, rfl⟩
  | trans _ _ ih ih' => exact ⟨ih.1.trans ih'.1, ih.2.trans ih'.2⟩
  | @perm entries entries' h =>
    have hkeys : "toString" ∈ entries.map Prod.fst ↔ "toString" ∈ entries'.map Prod.fst :=
      (h.map Prod.fst).mem_iff
    have htext : stringOf (.object entries) = stringOf (.object entries') := by
      rw [stringOf, stringOf]
      simp only [hkeys]
    exact ⟨htext, htext⟩
  | @item before after v w h ih =>
    have htext : stringOf (.array (before ++ v :: after)) =
        stringOf (.array (before ++ w :: after)) := by
      rw [stringOf_array, stringOf_array, List.mapM_append, List.mapM_append, List.mapM_cons,
        List.mapM_cons, ih.2]
    exact ⟨htext, htext⟩
  | @member before after key v w h ih =>
    have htext : stringOf (.object (before ++ (key, v) :: after)) =
        stringOf (.object (before ++ (key, w) :: after)) := by
      rw [stringOf, stringOf, List.map_append, List.map_append, List.map_cons, List.map_cons]
    exact ⟨htext, htext⟩

theorem reference_of_ne {v : Json} (h : v ≠ .null) :
    reference (some v) = (stringOf v).map some := by
  cases v <;> first | rfl | exact absurd rfl h

theorem reference_eq {a b : Option Json} (h : Option.Rel Reordered a b) :
    reference a = reference b := by
  cases h with
  | none => rfl
  | @some v w h =>
    by_cases hnull : v = .null
    · rw [hnull, h.null_iff.mp hnull]
    · rw [reference_of_ne hnull, reference_of_ne (h.null_iff.not.mp hnull),
        (stringOf_eq h).1]

theorem orElse_rel {a b a' b' : Option Json} (ha : Option.Rel Reordered a a')
    (hb : Option.Rel Reordered b b') : Option.Rel Reordered (orElse a b) (orElse a' b') := by
  cases ha with
  | none => exact hb
  | @some v w h =>
    have hsome : ∀ u : Json, u ≠ .null → ∀ c, orElse (some u) c = some u := by
      intro u hu c
      cases u <;> first | rfl | exact absurd rfl hu
    by_cases hnull : v = .null
    · rw [hnull, h.null_iff.mp hnull]
      exact hb
    · rw [hsome v hnull, hsome w (h.null_iff.not.mp hnull)]
      exact .some h

theorem asString_rel {a b : Option Json} (h : Option.Rel Reordered a b) :
    a.bind asString = b.bind asString := by
  cases h with
  | none => rfl
  | some h => exact h.asString_eq

/-- A result without the payload that is kept. -/
def HandleCallbackResult.withoutPayload : HandleCallbackResult → HandleCallbackResult
  | .failed reason errorMessage => .failed reason errorMessage
  | .event e => .event { e with sanitizedPayload := [] }

theorem eventOf_eq (h : Reordered v w) (hv : objects distinctKeys v = true) :
    ((eventOf v).map .event).map HandleCallbackResult.withoutPayload =
      ((eventOf w).map .event).map HandleCallbackResult.withoutPayload := by
  have hget := h.get_rel hv
  have htransaction := reference_eq (hget "payment_id")
  have hreference := reference_eq (orElse_rel (hget "invoice_id") (hget "payment_id"))
  have hstatus := asString_rel (hget "payment_status")
  have horder := asString_rel (hget "order_id")
  rw [eventOf, eventOf, htransaction, hreference, hstatus, horder]
  cases reference (orElse (get w "invoice_id") (get w "payment_id")) with
  | none => rfl
  | some text =>
    cases reference (get w "payment_id") with
    | none => rfl
    | some text' => rfl

theorem handleCallback_eq {t t' u : Json} {secret : Option String}
    {headers : Option (List (String × String))}
    (ht : Json.parse body = some t) (ht' : Json.parse body' = some t')
    (hcanonical : canonical body = canonical body') (h : Reordered (value t) u)
    (h' : Reordered (value t') u) :
    (handleCallback hmac secret ⟨some body, headers⟩).map HandleCallbackResult.withoutPayload =
      (handleCallback hmac secret ⟨some body', headers⟩).map
        HandleCallbackResult.withoutPayload := by
  have hverify : verifyIpnSignature hmac body (signatureOf (headers.getD [])) (secret.getD "") =
      verifyIpnSignature hmac body' (signatureOf (headers.getD [])) (secret.getD "") :=
    verify_eq (parsed_ne_empty ht) (parsed_ne_empty ht') hcanonical
  have hobject : isObject (value t) = isObject (value t') :=
    h.isObject_eq.trans h'.isObject_eq.symm
  have hevent := (eventOf_eq h (Json.distinct_value t)).trans
    (eventOf_eq h' (Json.distinct_value t')).symm
  simp only [handleCallback, Option.getD_some, hverify, ht, ht', Option.map_some,
    Option.filter_some, hobject]
  split_ifs
  · rfl
  · exact hevent
  · rfl

/-! ### The signature and the event -/

/-- **The signature covers the event.** A body is accepted like every other that stands for the same
    value up to the order of members, and plain bodies with one canonical text have one event. -/
theorem ipn_covers_event (hmac : Hmac) (body body' : String) :
    (∀ t t', Json.parse body = some t → Json.parse body' = some t' →
      Reordered (value t) (value t') → ∀ signature secret,
        verifyIpnSignature hmac body signature secret =
          verifyIpnSignature hmac body' signature secret) ∧
    ∀ t t' text, Json.parse body = some t → Json.parse body' = some t' →
      Plain (value t) → Plain (value t') → canonical body = some text →
      canonical body' = some text → ∀ secret headers,
        (handleCallback hmac secret ⟨some body, headers⟩).map HandleCallbackResult.withoutPayload =
          (handleCallback hmac secret ⟨some body', headers⟩).map
            HandleCallbackResult.withoutPayload := by
  refine ⟨fun t t' ht ht' hr signature secret => ?_,
    fun t t' text ht ht' hplain hplain' hc hc' secret headers => ?_⟩
  · exact verify_eq (parsed_ne_empty ht) (parsed_ne_empty ht') (canonical_reordered ht ht' hr)
  · have hsame : toText (sortKeysDeep (value t)) = toText (sortKeysDeep (value t')) := by
      rw [canonical, ht] at hc
      rw [canonical, ht'] at hc'
      exact (Option.some.inj hc).trans (Option.some.inj hc').symm
    obtain ⟨u, hu, hu'⟩ := reordered_of_canonical hplain hplain' hsame
    exact handleCallback_eq ht ht' (hc.trans hc'.symm) hu hu'

/-- Two bodies that differ in the order of their members. -/
def paid : List (String × Json) :=
  [("payment_status", .string "finished"), ("order_id", .string "7")]

def paidHeaders : List (String × String) :=
  [("x-nowpayments-ipn-signature", "k" ++ Json.stringify (.object paid.reverse))]

theorem ipn_covers_event_swapped :
    (∀ signature secret,
      verifyIpnSignature (fun k t => k ++ t) (Json.stringify (.object paid)) signature secret =
        verifyIpnSignature (fun k t => k ++ t) (Json.stringify (.object paid.reverse)) signature
          secret) ∧
    (handleCallback (fun k t => k ++ t) (some "k")
        ⟨some (Json.stringify (.object paid)), some paidHeaders⟩).map
          HandleCallbackResult.withoutPayload =
      (handleCallback (fun k t => k ++ t) (some "k")
        ⟨some (Json.stringify (.object paid.reverse)), some paidHeaders⟩).map
          HandleCallbackResult.withoutPayload := by
  have hparse : Json.parse (Json.stringify (.object paid)) = some (.object paid) :=
    Json.parse_printed rfl
  have hparse' : Json.parse (Json.stringify (.object paid.reverse)) = some (.object paid.reverse) :=
    Json.parse_printed rfl
  have hcanonical : canonical (Json.stringify (.object paid)) =
      some (Json.stringify (.object paid.reverse)) := by
    rw [canonical, hparse]
    decide +kernel
  have hcanonical' : canonical (Json.stringify (.object paid.reverse)) =
      some (Json.stringify (.object paid.reverse)) := by
    rw [canonical, hparse']
    decide +kernel
  obtain ⟨hverify, hevent⟩ := ipn_covers_event (fun k t => k ++ t) (Json.stringify (.object paid))
    (Json.stringify (.object paid.reverse))
  exact ⟨hverify _ _ hparse hparse' (.perm (List.Perm.swap _ _ _)),
    hevent _ _ _ hparse hparse' ⟨by decide +kernel, by decide +kernel⟩
      ⟨by decide +kernel, by decide +kernel⟩ hcanonical hcanonical' (some "k")
      (some paidHeaders)⟩

/-- A body with one field. -/
def bodyWith (v : Json) : String := Json.stringify (.object [("payment_id", v)])

theorem parse_bodyWith (h : numbers isLiteral v = true) :
    Json.parse (bodyWith v) = some (.object [("payment_id", v)]) :=
  Json.parse_printed (Json.numbers_object.mpr (by
    intro e he
    rwa [List.mem_singleton.mp he]))

/-- A literal that is too large for a double. -/
theorem numberOf_large : Json.numberOf "1e1024" = .infinity false := by
  have hchars : "1e1024".toList = ['1', 'e', '1', '0', '2', '4'] := by decide
  have hexponent : JsNumber.exponentValue ['e', '1', '0', '2', '4'] = some 1024 := by decide
  have hdecimal : JsNumber.decimalValue ['1', 'e', '1', '0', '2', '4'] =
      some ((((1 : ℕ) : ℚ) + ((0 : ℕ) : ℚ) / 10 ^ 0) * 10 ^ (1024 : ℤ)) := by
    simp [JsNumber.decimalValue, List.takeWhile, List.dropWhile, hexponent, JsNumber.digitsValue,
      JsNumber.digitValue]
  have hlarge : JsNumber.OVERFLOW ≤ 10 ^ 1024 :=
    JsNumber.overflow_bounds.2.trans (pow_le_pow_left₀ (by norm_num) (by norm_num) 1024)
  rw [Json.numberOf, hchars]
  change JsNumber.unsignedNumber false _ = _
  rw [JsNumber.unsignedNumber, if_neg (by decide), hdecimal, Nat.cast_zero, zero_div, add_zero,
    Nat.cast_one, one_mul]
  exact JsNumber.toDouble_overflow hlarge

theorem value_large :
    value (.object [("payment_id", .number "1e1024")]) =
      .object [("payment_id", .number "Infinity")] := by
  change Json.object [("payment_id", .number (Json.numberOf "1e1024").text)] = _
  rw [numberOf_large]
  rfl

theorem canonical_large : canonical (bodyWith (.number "1e1024")) = some (bodyWith .null) := by
  rw [canonical, parse_bodyWith (by decide), Option.map_some, value_large]
  decide +kernel

theorem canonical_null : canonical (bodyWith .null) = some (bodyWith .null) := by
  rw [canonical, parse_bodyWith rfl]
  decide +kernel

/-- `{"payment_id":1e1024}` has the canonical text of `{"payment_id":null}`, and another event. -/
theorem infinite_number_uncovered :
    ¬ ∀ (hmac : Hmac) (body body' : String) (t t' : Json) (text : String),
      Json.parse body = some t → Json.parse body' = some t' →
      objects plainKeys (value t) = true → objects plainKeys (value t') = true →
      canonical body = some text → canonical body' = some text → ∀ secret headers,
        (handleCallback hmac secret ⟨some body, headers⟩).map HandleCallbackResult.withoutPayload =
          (handleCallback hmac secret ⟨some body', headers⟩).map
            HandleCallbackResult.withoutPayload := by
  intro h
  have hsame := h (fun _ _ => "s") (bodyWith (.number "1e1024")) (bodyWith .null) _ _ _
    (parse_bodyWith (by decide)) (parse_bodyWith rfl) (by rw [value_large]; rfl) rfl
    canonical_large canonical_null (some "k") (some [("X-NowPayments-Ipn-Signature", "s")])
  have hsigned : signatureOf [("X-NowPayments-Ipn-Signature", "s")] = "s" := by decide +kernel
  have hverify : ∀ body, body ≠ "" → canonical body = some (bodyWith .null) →
      verifyIpnSignature (fun _ _ => "s") body "s" "k" = true := by
    intro body hne hc
    rw [verifyIpnSignature, hc, if_neg (by simp [hne])]
    rfl
  have hlarge := parse_bodyWith (v := .number "1e1024") (by decide)
  have hnull := parse_bodyWith (v := .null) rfl
  simp only [handleCallback, Option.getD_some, hsigned,
    hverify _ (parsed_ne_empty hlarge) canonical_large,
    hverify _ (parsed_ne_empty hnull) canonical_null, hlarge, hnull, Option.map_some,
    value_large] at hsame
  have htransaction := congrArg (fun r => r.bind fun r => match r with
    | .event e => e.transactionId
    | .failed _ _ => none) hsame
  exact absurd htransaction (by decide +kernel)

end ZedBot.Payments
