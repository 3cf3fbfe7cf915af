import RoutingPolicy.Proofs.Rule.Padding
import RoutingPolicy.Proofs.Session.Run

/-!
# Sessions and padded rules

Blanks around a rule change neither what becomes of it nor what the session learns, unless they come
between the reader and the name of an address family: in front of `AFI`, where they hide it, or behind
a token that ends the rule, where they make it a name.
-/

namespace RoutingPolicy

open Text

section Reading

variable {before after : Text}

theorem decompose_of_trim_eq {text other : Text} (htrim : trim text = trim other)
    (isDefault : Bool) : decompose text isDefault = decompose other isDefault := by
  unfold decompose
  rw [htrim]

namespace ParsedRule

/-- The family and the text after it are all that is read of a rule. -/
theorem read_of_splitFamily {text other body otherBody : Text} {context : Context}
    {family : AddressFamily} (htext : splitFamily text context = (family, body))
    (hother : splitFamily other context = (family, otherBody))
    (htrim : trim body = trim otherBody) : read text context = read other context := by
  unfold read
  rw [htext, hother]
  simp only [decompose_of_trim_eq htrim]

theorem splitFamily_padded (hbefore : ∀ c ∈ before, isBlank c = true)
    (hafter : ∀ c ∈ after, isBlank c = true) {text : Text} {context : Context}
    (hfront : context.multiprotocol = true → before ≠ [] →
      AddressFamily.afterKeyword? text = none)
    (hback : context.multiprotocol = true → after ≠ [] → ¬AddressFamily.EndsInFamily text) :
    ∃ family body padded, splitFamily text context = (family, body) ∧
      splitFamily (before ++ text ++ after) context = (family, padded) ∧
      trim padded = trim body := by
  by_cases hmultiprotocol : context.multiprotocol = true
  · unfold splitFamily
    rw [if_pos hmultiprotocol, if_pos hmultiprotocol]
    cases before with
    | nil =>
      obtain ⟨family, body, more, hmore, hbody, hpadded⟩ :=
        AddressFamily.resolve_append_blanks hafter (hback hmultiprotocol)
      exact ⟨family, body, body ++ more, hbody, hpadded, trim_append_right body hmore⟩
    | cons c before =>
      have hnone := hfront hmultiprotocol (List.cons_ne_nil c before)
      have hblank := hbefore c List.mem_cons_self
      refine ⟨.any, text, c :: before ++ text ++ after, AddressFamily.resolve_of_none hnone, ?_,
        trim_padded hbefore hafter text⟩
      apply AddressFamily.resolve_of_none
      exact AddressFamily.afterKeyword?_of_blank hblank (before ++ text ++ after)
  · unfold splitFamily
    rw [if_neg hmultiprotocol, if_neg hmultiprotocol]
    exact ⟨_, text, before ++ text ++ after, rfl, rfl, trim_padded hbefore hafter text⟩

/-- Behind a blank a multiprotocol rule is read as if it were for any family, whatever family it
names. -/
theorem read_of_blank {c : Char} (hc : isBlank c = true) (text : Text) {context : Context}
    (hmultiprotocol : context.multiprotocol = true) :
    read (c :: text) context =
      (read text { context with multiprotocol := false }).map
        ({ · with family := .any, multiprotocol := true }) := by
  have hsplit : splitFamily (c :: text) context = (.any, c :: text) := by
    unfold splitFamily
    rw [if_pos hmultiprotocol]
    exact AddressFamily.resolve_of_none (AddressFamily.afterKeyword?_of_blank hc text)
  have hplain : splitFamily text { context with multiprotocol := false } =
      (.ipv4Unicast, text) := rfl
  have htrim : trim (c :: text) = trim text :=
    trim_append_left (List.forall_mem_singleton.2 hc) text
  unfold read
  rw [hsplit, hplain]
  simp only [decompose_of_trim_eq htrim]
  cases decompose text context.isDefault with
  | error error => rfl
  | ok decomposition =>
    simp only
    cases Factor.read decomposition.factor (decomposition.filterClause.getD []) with
    | error error => rfl
    | ok factor => simp only [Except.map, hmultiprotocol]

end ParsedRule

theorem Contribution.ofRule_padded (hbefore : ∀ c ∈ before, isBlank c = true)
    (hafter : ∀ c ∈ after, isBlank c = true) (text : Text) (context : Context) (factor : Factor) :
    ofRule (before ++ text ++ after) context factor = ofRule text context factor := by
  unfold ofRule
  rw [AddressPair.ofRule?_of_lexemes_eq (lexemes_padded hbefore hafter text),
    ActionList.ofRule?_padded hbefore hafter]

end Reading

namespace Session

/-- Blanks around a rule do not matter, as long as those in front do not stand before an `AFI` and
those behind do not follow the token of a family. The whole outcome is the same, the wording of an
error included, and so is the session. -/
theorem analyse_padded (session : Session) (context : Context) {before text after : Text}
    (hbefore : ∀ c ∈ before, isBlank c = true) (hafter : ∀ c ∈ after, isBlank c = true)
    (hfront : context.multiprotocol = true → before ≠ [] →
      AddressFamily.afterKeyword? text = none)
    (hback : context.multiprotocol = true → after ≠ [] → ¬AddressFamily.EndsInFamily text) :
    session.analyse (before ++ text ++ after) context = session.analyse text context := by
  obtain ⟨family, body, padded, hbody, hpadded, htrim⟩ :=
    ParsedRule.splitFamily_padded hbefore hafter hfront hback
  have hread : ParsedRule.read (before ++ text ++ after) context = ParsedRule.read text context :=
    ParsedRule.read_of_splitFamily hpadded hbody htrim
  unfold analyse Analysis.ofRule
  rw [hread]
  simp only [Contribution.ofRule_padded hbefore hafter]

/-- A multiprotocol rule padded on both sides, and one that names its family with a line break
behind it. -/
theorem analyse_padded_multiprotocol :
    let session := new "AS64500".toList .standard
    let plain := "FROM AS1 ACCEPT AS-FOO".toList
    let named := "AFI IPV6.UNICAST FROM AS1 ACCEPT AS-FOO".toList
    (∀ c ∈ ['\t', ' '], isBlank c = true) ∧ (∀ c ∈ ['\n'], isBlank c = true) ∧
      AddressFamily.afterKeyword? plain = none ∧ ¬AddressFamily.EndsInFamily plain ∧
      ¬AddressFamily.EndsInFamily named ∧
      session.analyse (['\t', ' '] ++ plain ++ ['\n']) (.importing true) =
        session.analyse plain (.importing true) ∧
      session.analyse (named ++ ['\n']) (.importing true) =
        session.analyse named (.importing true) := by
  intro session plain named
  have hbefore : ∀ c ∈ ['\t', ' '], isBlank c = true :=
    List.forall_mem_cons.2 ⟨rfl, List.forall_mem_singleton.2 rfl⟩
  have hafter : ∀ c ∈ ['\n'], isBlank c = true := List.forall_mem_singleton.2 rfl
  have hplain : AddressFamily.afterKeyword? plain = none := by decide
  have hplainEnd : ¬AddressFamily.EndsInFamily plain := by
    rintro ⟨token, htoken, -⟩
    rw [hplain] at htoken
    exact absurd htoken.symm (Option.some_ne_none token)
  have hnamedEnd : ¬AddressFamily.EndsInFamily named := by
    rintro ⟨token, htoken, -, -, hword⟩
    have hrest : AddressFamily.afterKeyword? named =
        some "IPV6.UNICAST FROM AS1 ACCEPT AS-FOO".toList := by decide
    rw [hrest] at htoken
    rw [← Option.some.inj htoken] at hword
    exact absurd (hword ' ' (by decide)) (by decide)
  have hbehind := analyse_padded session (.importing true) (List.forall_mem_nil _) hafter
    (fun _ hne => absurd rfl hne) (fun _ _ => hnamedEnd)
  rw [List.nil_append] at hbehind
  exact ⟨hbefore, hafter, hplain, hplainEnd, hnamedEnd,
    analyse_padded session (.importing true) hbefore hafter (fun _ _ => hplain)
      (fun _ _ => hplainEnd), hbehind⟩

/-- A blank in front of `AFI` lets an IPv6 rule through although only IPv4 is asked for. -/
theorem analyse_blank_before_family :
    let session := new "AS64500".toList .standard
    let context := (Context.importing true).requesting (.only .ipv4)
    let text := "AFI IPV6.UNICAST FROM AS1 ACCEPT AS-FOO".toList
    (session.analyse text context).1 = .ok (.mismatch .ipv6Unicast) ∧
      (session.analyse (' ' :: text) context).1 = .ok (.accepted "AS1".toList) := by
  intro session context text
  have hread : ParsedRule.read text context =
      .ok ⟨.ipv6Unicast, .incoming, true, "AS1".toList, "AS-FOO".toList⟩ := by
    decide +kernel
  have hplain : ParsedRule.read text { context with multiprotocol := false } =
      .ok ⟨.ipv4Unicast, .incoming, false, "AS1".toList, "AS-FOO".toList⟩ := by
    decide +kernel
  have hblank : ParsedRule.read (' ' :: text) context =
      .ok ⟨.any, .incoming, true, "AS1".toList, "AS-FOO".toList⟩ := by
    rw [ParsedRule.read_of_blank (by decide) text rfl, hplain]
    rfl
  constructor
  · rw [analyse_of_read session hread]
    rfl
  · rw [analyse_of_read session hblank]
    rfl

end Session

end RoutingPolicy
