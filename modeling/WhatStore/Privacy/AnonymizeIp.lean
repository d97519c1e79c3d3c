import WhatStore.Text.Addresses

/-!
# Addresses of visitors

`anonymizeIp` cuts an address before it is stored with a visit. It works on the
text: an IPv4 address loses its last octet, and of the pieces between colons the
last two are dropped. Where the text has a gap, the pieces are not the groups, and
for most addresses with a gap the result is another address or none.
-/

namespace WhatStore.Privacy

open Text

def mappedPrefix : Chars := "::ffff:".toList

/-- `ip.replace(/^::ffff:/, '')`. -/
def stripMapped (ip : Chars) : Chars :=
  if mappedPrefix.isPrefixOf ip then ip.drop mappedPrefix.length else ip

def anonymizeText (clean : Chars) : Option Chars :=
  if '.' ∈ clean then
    match clean.splitOn '.' with
    | [a, b, c, _] => some (quadText a b c ['0'])
    | _ => none
  else if ':' ∈ clean then
    let groups := clean.splitOn ':'
    some (joinPieces (groups.take (max 1 (groups.length - 2))) ++ [':', ':'])
  else none

def anonymizeIp : Option Chars → Option Chars
  | none => none
  | some ip => if ip = [] then none else anonymizeText (stripMapped ip)

/-! ## What is to be stored -/

/-- Without the last octet, or without the last two groups. -/
def mask : IpAddress → IpAddress
  | .v4 a b c _ => .v4 a b c 0
  | .v6 groups => .v6 (groups.take 6 ++ [0, 0])

/-- What is stored for the text is the address without its last parts. -/
def Anonymized (ip : Chars) (address : IpAddress) : Prop :=
  ∃ out, anonymizeIp (some ip) = some out ∧ readAddress out = some (mask address)

/-- The first six groups of the addresses that map IPv4 addresses. -/
def mappedGroups : List ℕ := [0, 0, 0, 0, 0, 0xffff]

def Mapped (groups : List ℕ) : Prop := groups.take 6 = mappedGroups

/-- The last four octets are zero but for the very last. -/
def LastOctet (groups : List ℕ) : Prop := ∃ h < 256, groups.drop 6 = [0, h]

/-- The spellings of IPv6 addresses whose pieces are their groups where it matters. -/
def Cuttable (ip : Chars) (groups : List ℕ) : Prop :=
  if '.' ∈ ip then
    if mappedPrefix.isPrefixOf ip then (readQuad (ip.drop mappedPrefix.length)).isSome = true
    else Mapped groups ∨ LastOctet groups
  else
    match cut ip with
    | none => ¬ Mapped groups ∨ LastOctet groups
    | some (_, right) =>
      if right = [] then Mapped groups ∨ groups[6]? = some 0
      else ':' ∉ right ∧ (¬ Mapped groups ∨ LastOctet groups)

/-- IPv4 addresses and the spellings that can be cut. -/
def Sound (ip : Chars) : Prop :=
  (readQuad ip).isSome = true ∨ ∃ groups, readGroups ip = some groups ∧ Cuttable ip groups

/-! ## What the address loses -/

theorem canonical_append {front : List ℕ} (hlength : front.length = 6) (g h : ℕ) :
    canonical (front ++ [g, h]) =
      if front = mappedGroups then .v4 (g / 256) (g % 256) (h / 256) (h % 256)
      else .v6 (front ++ [g, h]) := by
  split
  · next hmapped =>
      rw [hmapped]
      rfl
  · next hmapped =>
      match front, hlength with
      | [a, b, c, d, e, f], _ =>
          rw [canonical]
          intro g' h' heq
          apply hmapped
          simp_all [mappedGroups]

theorem exists_front {groups : List ℕ} (hlength : groups.length = 8) :
    ∃ front g h, front.length = 6 ∧ groups = front ++ [g, h] := by
  match groups, hlength with
  | [a, b, c, d, e, f, g, h], _ => exact ⟨[a, b, c, d, e, f], g, h, rfl, rfl⟩

section

variable {front : List ℕ} (hlength : front.length = 6) {g h : ℕ}
include hlength

theorem mapped_append : Mapped (front ++ [g, h]) ↔ front = mappedGroups := by
  rw [Mapped, List.take_left' hlength]

theorem lastOctet_append : LastOctet (front ++ [g, h]) ↔ g = 0 ∧ h < 256 := by
  rw [LastOctet, List.drop_left' hlength]
  simp [and_comm]

theorem canonical_eq_mask {g' h' : ℕ} :
    canonical (front ++ [g', h']) = mask (canonical (front ++ [g, h])) ↔
      if front = mappedGroups then g' = g ∧ h' = 256 * (h / 256) else g' = 0 ∧ h' = 0 := by
  rw [canonical_append hlength, canonical_append hlength]
  split
  · simp only [mask, IpAddress.v4.injEq]
    omega
  · simp [mask, List.take_left' hlength]

end

theorem take_eq_of_mask {groups groups' : List ℕ} (hlength : groups.length = 8)
    (hlength' : groups'.length = 8) (h : canonical groups' = mask (canonical groups)) :
    groups'.take 6 = groups.take 6 := by
  obtain ⟨front, x, y, hfront, rfl⟩ := exists_front hlength
  obtain ⟨front', x', y', hfront', rfl⟩ := exists_front hlength'
  rw [List.take_left' hfront, List.take_left' hfront']
  rw [canonical_append hfront, canonical_append hfront'] at h
  split at h
  · next hmapped' =>
      split at h
      · next hmapped => rw [hmapped, hmapped']
      · cases h
  · split at h
    · cases h
    · simp only [mask, IpAddress.v6.injEq, List.take_left' hfront] at h
      exact List.append_inj_left h (hfront'.trans hfront.symm)

/-! ## Addresses without octets -/

theorem readQuad_of_colon {s : Chars} (h : ':' ∈ s) : readQuad s = none := by
  cases hread : readQuad s with
  | none => rfl
  | some q =>
      obtain ⟨a, b, c, d, rfl, ha, hb, hc, hd, -⟩ := exists_of_readQuad hread
      have hcolon : ∀ s, IsOctet s → ':' ∉ s := fun s hs => hs.notMem rfl
      simp [quadText, hcolon, ha, hb, hc, hd] at h

theorem readAddress_of_colon {s : Chars} (h : ':' ∈ s) :
    readAddress s = (readGroups s).map canonical := by
  rw [readAddress, readQuad_of_colon h]

theorem readAddress_of_form {s : Chars} {groups : List ℕ} (hcolon : ':' ∈ s)
    (h : Form s groups) : readAddress s = some (canonical groups) := by
  rw [readAddress_of_colon hcolon, readGroups_iff.2 h]
  rfl

theorem readSide_colon (s : Chars) : readSide (s ++ [':']) = none := by
  have hsplit : (s ++ [':']).splitOn ':' = s.splitOn ':' ++ [[]] := by
    rw [List.splitOn_append_cons_self, List.splitOn_nil]
  rw [readSide, if_neg (by simp), hsplit]
  cases hread : readPieces (s.splitOn ':' ++ [[]]) with
  | none => rfl
  | some gs => exact absurd rfl (piece_of_readPieces hread [] (by simp)).1

theorem join_append {ps qs : List Chars} (hps : ps ≠ []) (hqs : qs ≠ []) :
    joinPieces (ps ++ qs) = joinPieces ps ++ ':' :: joinPieces qs :=
  intercalate_append hps hqs

section

variable {left right : List Chars}

theorem splitOn_gap :
    (joinPieces left ++ ':' :: ':' :: joinPieces right).splitOn ':' =
      (joinPieces left).splitOn ':' ++ [] :: (joinPieces right).splitOn ':' := by
  rw [List.splitOn_append_cons_self, List.splitOn_cons_eq_if_modifyHead]
  simp

theorem anonymizeText_gap (hdot : '.' ∉ joinPieces left ++ ':' :: ':' :: joinPieces right)
    (hright : ∀ p ∈ right, p ≠ [] ∧ ':' ∉ p) (hlength : right.length ≤ 1) :
    anonymizeText (joinPieces left ++ ':' :: ':' :: joinPieces right) =
      some (joinPieces left ++ ':' :: ':' :: joinPieces []) := by
  have hsplit : (joinPieces right).splitOn ':' = [joinPieces right] := by
    apply List.splitOn_eq_singleton
    match right, hlength with
    | [], _ => simp
    | [p], _ => simpa using (hright p (by simp)).2
  rw [anonymizeText, if_neg hdot, if_pos (by simp), splitOn_gap, hsplit]
  have hne := List.length_pos_of_ne_nil (List.splitOn_ne_nil ':' (joinPieces left))
  have htake : max 1 (((joinPieces left).splitOn ':' ++ [[], joinPieces right]).length - 2) =
      ((joinPieces left).splitOn ':').length := by
    simp
    omega
  simp only [htake, List.take_left]
  rw [show joinPieces ((joinPieces left).splitOn ':') = joinPieces left from List.intercalate_splitOn ':']
  rfl

/-- Of two or more pieces behind a gap the last two go, and a second gap is left. -/
theorem anonymizeText_gaps (hdot : '.' ∉ joinPieces left ++ ':' :: ':' :: joinPieces right)
    (hright : ∀ p ∈ right, p ≠ [] ∧ ':' ∉ p) (hlength : 2 ≤ right.length) :
    ∃ rest, anonymizeText (joinPieces left ++ ':' :: ':' :: joinPieces right) =
      some (joinPieces left ++ ':' :: ':' :: (rest ++ [':'])) := by
  have hright_ne : right ≠ [] := by
    rintro rfl
    simp at hlength
  have hsplit := splitOn_join hright_ne hright
  have hne := List.splitOn_ne_nil ':' (joinPieces left)
  have hpos := List.length_pos_of_ne_nil hne
  have hjoin : joinPieces ((joinPieces left).splitOn ':') = joinPieces left := List.intercalate_splitOn ':'
  have htake : max 1 (((joinPieces left).splitOn ':' ++ [] :: right).length - 2) =
      ((joinPieces left).splitOn ':').length + (right.length - 2 + 1) := by
    simp
    omega
  rw [anonymizeText, if_neg hdot, if_pos (by simp), splitOn_gap, hsplit]
  simp only [htake, List.take_length_add_append, List.take_succ_cons]
  rw [join_append hne (List.cons_ne_nil _ _), hjoin]
  cases hkept : right.take (right.length - 2) with
  | nil => exact ⟨[], by simp⟩
  | cons p ps => exact ⟨joinPieces (p :: ps) ++ [':'], by simp [join_cons_cons]⟩

end

section

variable {left : List Chars} (hleft : ∀ p ∈ left, IsGroup p)
include hleft

theorem readGroups_second_gap (rest : Chars) :
    readGroups (joinPieces left ++ ':' :: ':' :: (rest ++ [':'])) = none := by
  have hread := readPieces_groups hleft
  rw [readGroups, cut_append (cut_join_append (piece_of_readPieces hread))]
  simp [readSide_join hread, readSide_colon]

theorem form_gap (hlength : left.length ≤ 7) :
    Form (joinPieces left ++ ':' :: ':' :: joinPieces [])
      (left.map hexValue ++ List.replicate (8 - left.length) 0) :=
  .short left [] [] hleft rfl (by simpa using hlength) rfl (by simp)

end

theorem colon_mem_join {ps : List Chars} (hlength : 2 ≤ ps.length) : ':' ∈ joinPieces ps := by
  match ps, hlength with
  | p :: q :: ps, _ => simp [join_cons_cons]

theorem anonymizeText_join {ps : List Chars} (h : ∀ p ∈ ps, IsGroup p) (hlength : 2 ≤ ps.length) :
    anonymizeText (joinPieces ps) =
      some (joinPieces (ps.take (max 1 (ps.length - 2))) ++ ':' :: ':' :: joinPieces []) := by
  have hne : ps ≠ [] := by
    rintro rfl
    simp at hlength
  rw [anonymizeText, if_neg (dot_notMem_join h), if_pos (colon_mem_join hlength)]
  simp [splitOn_join hne (piece_of_readPieces (readPieces_groups h))]

/-! ## Addresses that end in octets -/

theorem join_concat (init : List Chars) (last : Chars) :
    joinPieces (init ++ [last]) = init.flatMap (fun p => p ++ [':']) ++ last := by
  induction init with
  | nil => simp
  | cons p ps ih =>
      obtain ⟨q, qs, hcons⟩ := List.exists_cons_of_ne_nil (l := ps ++ [last]) (by simp)
      rw [List.cons_append, hcons, join_cons_cons, ← hcons, ih]
      simp

theorem dot_notMem_flatMap {ps : List Chars} (h : ∀ p ∈ ps, IsGroup p) :
    '.' ∉ ps.flatMap fun p => p ++ [':'] := by
  simp only [List.mem_flatMap, List.mem_append, List.mem_singleton, not_exists, not_and, not_or]
  exact fun p hp => ⟨(h p hp).notMem rfl, by decide⟩

theorem isOctet_zero : IsOctet ['0'] := by decide

theorem anonymizeText_quad {w a b c d : Chars} (hw : '.' ∉ w) (ha : IsOctet a) (hb : IsOctet b)
    (hc : IsOctet c) (hd : IsOctet d) :
    anonymizeText (w ++ quadText a b c d) = some (w ++ quadText a b c ['0']) := by
  have hmove : ∀ d, w ++ quadText a b c d = quadText (w ++ a) b c d := by
    simp [quadText]
  have hwa : '.' ∉ w ++ a := by
    simpa [hw] using ha.notMem rfl
  have hsplit := splitOn_quadText hwa (hb.notMem rfl) (hc.notMem rfl) (hd.notMem rfl)
  have hdot : '.' ∈ quadText (w ++ a) b c d := by
    simp [quadText]
  rw [hmove, anonymizeText, if_pos hdot, hsplit, hmove]

/-- An IPv6 address with octets ends in them, and in others if others are put there. -/
theorem exists_quad {s : Chars} {groups : List ℕ} (h : Form s groups) (hdot : '.' ∈ s) :
    ∃ w a b c d front, s = w ++ quadText a b c d ∧ '.' ∉ w ∧ ':' ∈ w ∧ IsOctet a ∧ IsOctet b ∧
      IsOctet c ∧ front.length = 6 ∧ IsOctet d ∧
      ∀ d', IsOctet d' → Form (w ++ quadText a b c d') (front ++
        quadGroups (Nat.ofDigitChars 10 a 0, Nat.ofDigitChars 10 b 0, Nat.ofDigitChars 10 c 0,
          Nat.ofDigitChars 10 d' 0)) := by
  rcases h with ⟨ps, hps, hlength, rfl⟩ | ⟨left, right, after, hleft, hright, hlength, rfl, rfl⟩
  · rcases readPieces_eq_some hps with ⟨hgroups, -⟩ | ⟨init, last, q, rfl, hinit, hlast, rfl⟩
    · exact absurd hdot (dot_notMem_join hgroups)
    · obtain ⟨a, b, c, d, rfl, ha, hb, hc, hd, rfl⟩ := exists_of_readQuad hlast
      have hsix : init.length = 6 := by simpa [quadGroups] using hlength
      have hcolon : ':' ∈ init.flatMap fun p => p ++ [':'] := by
        match init, hsix with
        | p :: init, _ => simp
      refine ⟨_, a, b, c, d, init.map hexValue, join_concat _ _, dot_notMem_flatMap hinit, hcolon,
        ha, hb, hc, by simpa using hsix, hd, fun d' hd' => ?_⟩
      exact .full _ (readPieces_quad hinit (readQuad_quadText ha hb hc hd'))
        (by simp [quadGroups, hsix]) (join_concat _ _).symm
  · rcases readPieces_eq_some hright with ⟨hgroups, -⟩ | ⟨init, last, q, rfl, hinit, hlast, rfl⟩
    · simp [dot_notMem_join hleft, dot_notMem_join hgroups] at hdot
    · obtain ⟨a, b, c, d, rfl, ha, hb, hc, hd, rfl⟩ := exists_of_readQuad hlast
      have hfew : left.length + (init.length + 2) ≤ 7 := by simpa [quadGroups] using hlength
      refine ⟨joinPieces left ++ ':' :: ':' :: init.flatMap fun p => p ++ [':'], a, b, c, d,
        left.map hexValue ++ List.replicate (8 - left.length - (init.length + 2)) 0 ++
          init.map hexValue, ?_, ?_, by simp, ha, hb, hc, ?_, hd, fun d' hd' => ?_⟩
      · simp [join_concat]
      · simp [dot_notMem_join hleft]
        simpa using dot_notMem_flatMap hinit
      · simp
        omega
      · refine .short left (init ++ [quadText a b c d']) _ hleft
          (readPieces_quad hinit (readQuad_quadText ha hb hc hd')) (by simpa [quadGroups] using hfew)
          (by simp [join_concat]) (by simp [quadGroups])

theorem ofDigitChars_lt {s : Chars} (h : IsOctet s) : Nat.ofDigitChars 10 s 0 < 256 :=
  Nat.lt_succ_of_le h.2.2.2

theorem anonymized_iff_of_eq {ip out : Chars} {address : IpAddress} (hip : ip ≠ [])
    (h : anonymizeText (stripMapped ip) = some out) :
    Anonymized ip address ↔ readAddress out = some (mask address) := by
  simp [Anonymized, anonymizeIp, hip, h]

/-! ## The mapped prefix -/

theorem exists_stripped {rest : Chars} {groups : List ℕ} (h : Form (mappedPrefix ++ rest) groups) :
    ∃ ps after, ps ≠ [] ∧ rest = joinPieces ps ∧ readPieces ps = some after ∧ after.length ≤ 6 ∧
      groups = List.replicate (7 - after.length) 0 ++ 0xffff :: after := by
  have hcut : cut (mappedPrefix ++ rest) = some ([], "ffff:".toList ++ rest) := rfl
  rcases h with ⟨ps, hps, -, hs⟩ | ⟨left, right, values, hleft, hright, hlength, hs, rfl⟩
  · rw [hs, cut_join (piece_of_readPieces hps)] at hcut
    cases hcut
  · rw [hs, cut_append (cut_join_append (piece_of_readPieces (readPieces_groups hleft))),
      Option.some.injEq, Prod.mk.injEq] at hcut
    obtain ⟨hnil, hjoin⟩ := hcut
    have hleft_nil : left = [] := by
      cases left with
      | nil => rfl
      | cons p ps =>
          have hsplit := splitOn_join (List.cons_ne_nil p ps)
            (piece_of_readPieces (readPieces_groups hleft))
          rw [hnil, List.splitOn_nil, List.cons.injEq] at hsplit
          exact absurd hsplit.1.symm (hleft p List.mem_cons_self).1
    have hright_ne : right ≠ [] := by
      rintro rfl
      cases hjoin
    have hsplit := splitOn_join hright_ne (piece_of_readPieces hright)
    rw [hjoin, show "ffff:".toList ++ rest = "ffff".toList ++ ':' :: rest from rfl,
      List.splitOn_append_cons_self_of_not_mem (by decide)] at hsplit
    have hrest : rest.splitOn ':' ≠ [] := List.splitOn_ne_nil _ _
    have hgroup : readGroup "ffff".toList = some 0xffff := by decide
    obtain ⟨p, ps, hcons⟩ := List.exists_cons_of_ne_nil hrest
    rw [← hsplit, hcons, readPieces_cons_cons, hgroup, Option.bind_some, ← hcons] at hright
    obtain ⟨after, hafter, rfl⟩ := Option.map_eq_some_iff.1 hright
    rw [hleft_nil] at hlength ⊢
    refine ⟨_, after, hrest, (List.intercalate_splitOn ':').symm, hafter, ?_, ?_⟩
    · simp at hlength
      omega
    · simp

/-- What is kept of the groups behind the prefix moves to the front. -/
theorem canonical_ne_mask {values : List ℕ} {k : ℕ} (htwo : 2 ≤ values.length)
    (hsix : values.length ≤ 6) (hk : k = max 1 (values.length - 2)) :
    canonical (values.take k ++ List.replicate (8 - k) 0) ≠
      mask (canonical (List.replicate (7 - values.length) 0 ++ 0xffff :: values)) := by
  intro h
  have htake := take_eq_of_mask (by simp; omega) (by simp; omega) h
  match values, htwo, hsix with
  | [a, b], _, _ | [a, b, c], _, _ | [a, b, c, d], _, _ | [a, b, c, d, e], _, _
  | [a, b, c, d, e, f], _, _ =>
      simp [hk] at htake
      try omega

theorem stripMapped_append (rest : Chars) : stripMapped (mappedPrefix ++ rest) = rest := rfl

section

variable {ps : List Chars} {after : List ℕ} (hps : ps ≠ []) (hread : readPieces ps = some after)
  (hlength : after.length ≤ 6)
include hps hread hlength

/-- With the prefix go the zeros, unless octets alone are left. -/
theorem anonymized_stripped_dot (hdot : '.' ∈ joinPieces ps) :
    Anonymized (mappedPrefix ++ joinPieces ps)
        (canonical (List.replicate (7 - after.length) 0 ++ 0xffff :: after)) ↔
      (readQuad (joinPieces ps)).isSome = true := by
  rcases readPieces_eq_some hread with ⟨hgroups, -⟩ | ⟨init, last, q, rfl, hinit, hlast, rfl⟩
  · exact absurd hdot (dot_notMem_join hgroups)
  · obtain ⟨a, b, c, d, rfl, ha, hb, hc, hd, rfl⟩ := exists_of_readQuad hlast
    have htext := anonymizeText_quad (dot_notMem_flatMap hinit) ha hb hc hd
    rw [← join_concat, ← stripMapped_append (joinPieces _), ← join_concat] at htext
    rw [anonymized_iff_of_eq (by simp [mappedPrefix]) htext]
    cases init with
    | nil =>
        have hA := ofDigitChars_lt ha
        have hB := ofDigitChars_lt hb
        have hC := ofDigitChars_lt hc
        have hD := ofDigitChars_lt hd
        simp only [List.nil_append, join_singleton, readAddress,
          readQuad_quadText ha hb hc isOctet_zero, readQuad_quadText ha hb hc hd]
        simp only [quadGroups, List.map_nil, List.nil_append, List.length_cons, List.length_nil]
        rw [show List.replicate (7 - (0 + 1 + 1)) 0 ++ [0xffff, _, _] = mappedGroups ++ [_, _] from rfl,
          canonical_append rfl, if_pos rfl]
        simp only [mask, Option.some.injEq, IpAddress.v4.injEq, Option.isSome_some, iff_true]
        refine ⟨?_, ?_, ?_, rfl⟩ <;> omega
    | cons p init =>
        have hpieces := readPieces_quad hinit (readQuad_quadText ha hb hc isOctet_zero)
        have hcolon : ∀ last, ':' ∈ joinPieces (p :: init ++ [last]) := fun last =>
          colon_mem_join (by simp)
        have hnone : readGroups (joinPieces (p :: init ++ [quadText a b c ['0']])) = none := by
          rw [Option.eq_none_iff_forall_ne_some]
          intro groups hgroups
          have hnocut := cut_join (piece_of_readPieces hpieces)
          have hsplit := splitOn_join (by simp) (piece_of_readPieces hpieces)
          have hlen := (readGroups_iff.1 hgroups).length_eq
          rw [readGroups, hnocut] at hgroups
          simp only [hsplit, hpieces] at hgroups
          obtain ⟨heq, -⟩ := Option.filter_eq_some_iff.1 hgroups
          rw [← Option.some.inj heq] at hlen
          simp [quadGroups] at hlen hlength
          omega
        rw [readAddress_of_colon (hcolon _), hnone, readQuad_of_colon (hcolon _)]
        simp

theorem not_anonymized_stripped (hdot : '.' ∉ joinPieces ps) :
    ¬ Anonymized (mappedPrefix ++ joinPieces ps)
      (canonical (List.replicate (7 - after.length) 0 ++ 0xffff :: after)) := by
  rcases readPieces_eq_some hread with ⟨hgroups, rfl⟩ | ⟨init, last, q, rfl, -, hlast, -⟩
  · rw [List.length_map] at hlength ⊢
    match ps, hps with
    | [p], _ =>
        have hcolon := (hgroups p (by simp)).notMem (c := ':') rfl
        rintro ⟨out, hout, -⟩
        rw [anonymizeIp, if_neg (by simp [mappedPrefix]), stripMapped_append, anonymizeText,
          if_neg hdot, if_neg (by simpa using hcolon)] at hout
        cases hout
    | p :: q :: ps, _ =>
        have htext := anonymizeText_join hgroups (by simp)
        rw [← stripMapped_append (joinPieces _)] at htext
        rw [anonymized_iff_of_eq (by simp [mappedPrefix]) htext]
        generalize hk : max 1 ((p :: q :: ps).length - 2) = k
        have hkept : ∀ p' ∈ (p :: q :: ps).take k, IsGroup p' :=
          fun p' hp' => hgroups p' (List.mem_of_mem_take hp')
        have hfew : ((p :: q :: ps).take k).length ≤ 7 := by
          rw [List.length_take]
          omega
        rw [readAddress_of_form (by simp) (form_gap hkept hfew)]
        have hne := @canonical_ne_mask ((p :: q :: ps).map hexValue) k (by simp)
          (by simpa using hlength) (by rw [List.length_map, hk])
        have hmin : min k (p :: q :: ps).length = k := by
          simp at hk ⊢
          omega
        rw [List.length_map] at hne
        rwa [List.length_take, hmin, List.map_take, Option.some.injEq]
  · refine absurd ?_ hdot
    rw [mem_join (by decide)]
    exact ⟨last, by simp, dot_mem_of_readQuad hlast⟩

end

theorem anonymized_mapped {rest : Chars} {groups : List ℕ}
    (h : Form (mappedPrefix ++ rest) groups) :
    Anonymized (mappedPrefix ++ rest) (canonical groups) ↔
      Cuttable (mappedPrefix ++ rest) groups := by
  obtain ⟨ps, after, hps, rfl, hread, hlength, rfl⟩ := exists_stripped h
  have hdot : '.' ∈ mappedPrefix ++ joinPieces ps ↔ '.' ∈ joinPieces ps := by
    simp [mappedPrefix]
  rw [Cuttable]
  by_cases hmem : '.' ∈ joinPieces ps
  · rw [if_pos (hdot.2 hmem), if_pos (List.isPrefixOf_iff_prefix.2 (List.prefix_append _ _)),
      List.drop_left]
    exact anonymized_stripped_dot hps hread hlength hmem
  · have hcut : cut (mappedPrefix ++ joinPieces ps) = some ([], "ffff:".toList ++ joinPieces ps) := rfl
    rw [if_neg (hdot.not.2 hmem)]
    simp only [hcut]
    simp [not_anonymized_stripped hps hread hlength hmem]

/-! ## Addresses without the prefix -/

section

variable {ip : Chars} {groups : List ℕ} (hpre : ¬ mappedPrefix.isPrefixOf ip = true)
include hpre

theorem stripMapped_of_not : stripMapped ip = ip := if_neg hpre

theorem anonymized_octets (h : Form ip groups) (hdot : '.' ∈ ip) :
    Anonymized ip (canonical groups) ↔ Mapped groups ∨ LastOctet groups := by
  obtain ⟨w, a, b, c, d, front, rfl, hw, hcolon, ha, hb, hc, hfront, hd, hform⟩ :=
    exists_quad h hdot
  have hgroups := readGroups_iff.2 h
  rw [readGroups_iff.2 (hform d hd), Option.some.injEq] at hgroups
  have htext := anonymizeText_quad hw ha hb hc hd
  rw [← stripMapped_of_not hpre] at htext
  have hD := ofDigitChars_lt hd
  have hzero : Nat.ofDigitChars 10 ['0'] 0 = 0 := rfl
  rw [anonymized_iff_of_eq (by simp [quadText]) htext,
    readAddress_of_form (by simp [hcolon]) (hform _ isOctet_zero), ← hgroups, quadGroups,
    quadGroups, mapped_append hfront, lastOctet_append hfront, Option.some.injEq,
    canonical_eq_mask hfront, hzero]
  split
  · next hmapped =>
      simp only [hmapped, true_or, iff_true, true_and]
      omega
  · next hmapped =>
      simp only [hmapped, false_or]
      omega

theorem anonymized_full {ps : List Chars} (hps : ∀ p ∈ ps, IsGroup p) (hlength : ps.length = 8)
    (hs : ip = joinPieces ps) (hgroups : groups = ps.map hexValue) :
    Anonymized ip (canonical groups) ↔ ¬ Mapped groups ∨ LastOctet groups := by
  subst hs hgroups
  have htext : anonymizeText (stripMapped (joinPieces ps)) =
      some (joinPieces (ps.take 6) ++ ':' :: ':' :: joinPieces []) := by
    rw [stripMapped_of_not hpre, anonymizeText_join hps (by omega), hlength]
    rfl
  obtain ⟨front, g, h, hfront, heq⟩ := exists_front ((List.length_map hexValue).trans hlength)
  have htake : (ps.take 6).map hexValue = front := by
    rw [List.map_take, heq, List.take_left' hfront]
  have hgap := form_gap (fun p hp => hps p (List.mem_of_mem_take hp)) (by simp : (ps.take 6).length ≤ 7)
  rw [htake, List.length_take, hlength] at hgap
  have hne := List.ne_nil_of_mem (colon_mem_join (show 2 ≤ ps.length by omega))
  rw [anonymized_iff_of_eq hne htext, readAddress_of_form (by simp) hgap, heq,
    mapped_append hfront, lastOctet_append hfront, Option.some.injEq,
    show List.replicate (8 - min 6 8) 0 = [0, 0] from rfl, canonical_eq_mask hfront]
  split
  · next hmapped =>
      simp only [hmapped, not_true, false_or]
      omega
  · next hmapped => simp [hmapped]

variable {left right : List Chars} {after : List ℕ} (hleft : ∀ p ∈ left, IsGroup p)
include hleft

theorem anonymized_gap_end (hlength : left.length ≤ 7) (hdot : '.' ∉ ip)
    (hs : ip = joinPieces left ++ ':' :: ':' :: joinPieces [])
    (hgroups : groups = left.map hexValue ++ List.replicate (8 - left.length) 0) :
    Anonymized ip (canonical groups) ↔ Mapped groups ∨ groups[6]? = some 0 := by
  have htext : anonymizeText (stripMapped ip) = some (joinPieces left ++ ':' :: ':' :: joinPieces []) := by
    rw [stripMapped_of_not hpre, hs]
    exact anonymizeText_gap (hs ▸ hdot) (by simp) (by simp)
  have hform := form_gap hleft hlength
  rw [← hgroups] at hform
  obtain ⟨front, g, h, hfront, rfl⟩ := exists_front hform.length_eq
  have hzero : h = 0 := by
    have hlast := congrArg (fun gs : List ℕ => gs[7]?) hgroups
    simp only [List.getElem?_append, List.length_map, List.getElem?_replicate, hfront] at hlast
    split at hlast
    · omega
    · split at hlast
      · omega
      · split at hlast
        · simpa using hlast
        · omega
  rw [anonymized_iff_of_eq (by simp [hs]) htext, readAddress_of_form (by simp) hform,
    mapped_append hfront, Option.some.injEq, canonical_eq_mask hfront, hzero,
    List.getElem?_append_right (by omega), hfront]
  split
  · next hmapped => simp [hmapped]
  · next hmapped => simp [hmapped]

theorem anonymized_gap_one {p : Chars} (hp : IsGroup p) (hlength : left.length + 1 ≤ 7)
    (hdot : '.' ∉ ip) (hs : ip = joinPieces left ++ ':' :: ':' :: joinPieces [p])
    (hgroups : groups =
      left.map hexValue ++ List.replicate (8 - left.length - 1) 0 ++ [hexValue p]) :
    Anonymized ip (canonical groups) ↔ ¬ Mapped groups ∨ LastOctet groups := by
  have htext : anonymizeText (stripMapped ip) = some (joinPieces left ++ ':' :: ':' :: joinPieces []) := by
    rw [stripMapped_of_not hpre, hs]
    exact anonymizeText_gap (hs ▸ hdot) (by simpa using ⟨hp.1, hp.notMem rfl⟩) (by simp)
  have hform := form_gap hleft (by omega)
  have hzeros : List.replicate (8 - left.length - 1) 0 =
      List.replicate (6 - left.length) 0 ++ [0] := by
    rw [← List.replicate_succ', show 8 - left.length - 1 = 6 - left.length + 1 by omega]
  have hmore : List.replicate (8 - left.length) 0 =
      List.replicate (6 - left.length) 0 ++ [0, 0] := by
    rw [show [0, 0] = List.replicate 2 0 from rfl, List.replicate_append_replicate,
      show 8 - left.length = 6 - left.length + 2 by omega]
  have hfront : (left.map hexValue ++ List.replicate (6 - left.length) 0).length = 6 := by
    simp
    omega
  have heq : groups = (left.map hexValue ++ List.replicate (6 - left.length) 0) ++ [0, hexValue p] := by
    rw [hgroups, hzeros]
    simp
  rw [hmore, ← List.append_assoc] at hform
  rw [anonymized_iff_of_eq (by simp [hs]) htext, readAddress_of_form (by simp) hform, heq,
    mapped_append hfront, lastOctet_append hfront, Option.some.injEq, canonical_eq_mask hfront]
  split
  · next hmapped =>
      simp only [hmapped, not_true, false_or, true_and]
      omega
  · next hmapped => simp [hmapped]

theorem not_anonymized_gaps (hright : readPieces right = some after) (htwo : 2 ≤ right.length)
    (hdot : '.' ∉ ip) (hs : ip = joinPieces left ++ ':' :: ':' :: joinPieces right) (address : IpAddress) :
    ¬ Anonymized ip address := by
  obtain ⟨rest, hrest⟩ := anonymizeText_gaps (hs ▸ hdot) (piece_of_readPieces hright) htwo
  rw [← hs, ← stripMapped_of_not hpre] at hrest
  rw [anonymized_iff_of_eq (by simp [hs]) hrest, readAddress_of_colon (by simp),
    readGroups_second_gap hleft]
  simp

end

theorem anonymized_iff_of_form {ip : Chars} {groups : List ℕ} (h : Form ip groups) :
    Anonymized ip (canonical groups) ↔ Cuttable ip groups := by
  by_cases hpre : mappedPrefix.isPrefixOf ip = true
  · obtain ⟨rest, rfl⟩ := List.isPrefixOf_iff_prefix.1 hpre
    exact anonymized_mapped h
  · by_cases hdot : '.' ∈ ip
    · rw [Cuttable, if_pos hdot, if_neg hpre]
      exact anonymized_octets hpre h hdot
    · rw [Cuttable, if_neg hdot]
      rcases h with ⟨ps, hps, hlength, hs⟩ | ⟨left, right, after, hleft, hright, hlength, hs, hgs⟩
      · have hcut : cut ip = none := hs ▸ cut_join (piece_of_readPieces hps)
        rcases readPieces_eq_some hps with ⟨hgroups, rfl⟩ | ⟨init, last, q, rfl, -, hlast, -⟩
        · simp only [hcut]
          exact anonymized_full hpre hgroups (by simpa using hlength) hs rfl
        · have hmem : '.' ∈ joinPieces (init ++ [last]) :=
            (mem_join (by decide)).2 ⟨last, by simp, dot_mem_of_readQuad hlast⟩
          exact absurd hmem (hs ▸ hdot)
      · have hcut : cut ip = some (joinPieces left, joinPieces right) :=
          hs ▸ cut_append (cut_join_append (piece_of_readPieces (readPieces_groups hleft))) _
        simp only [hcut]
        match right, hright with
        | [], hright =>
            cases hright
            rw [join_nil, if_pos rfl]
            exact anonymized_gap_end hpre hleft (by simpa using hlength) hdot hs (by simpa using hgs)
        | [p], hright =>
            have hp := piece_of_readPieces hright p (by simp)
            rw [join_singleton, if_neg hp.1]
            simp only [hp.2, not_false_eq_true, true_and]
            have hgroup : IsGroup p ∧ after = [hexValue p] := by
              rcases readPieces_eq_some hright with ⟨hgroups, rfl⟩ | ⟨init, last, q, heq, -, hlast, -⟩
              · simpa using hgroups
              · have hmem := dot_mem_of_readQuad hlast
                have hlast_mem : last ∈ [p] := by simp [heq]
                rw [List.mem_singleton.1 hlast_mem] at hmem
                simp [hs, hmem] at hdot
            obtain ⟨hgroup, rfl⟩ := hgroup
            exact anonymized_gap_one hpre hleft hgroup hlength hdot hs hgs
        | p :: q :: ps, hright =>
            have hcolon := colon_mem_join (show 2 ≤ (p :: q :: ps).length by simp)
            rw [if_neg (List.ne_nil_of_mem hcolon)]
            simp [not_anonymized_gaps hpre hleft hright (by simp) hdot hs, hcolon]

theorem anonymized_quad {a b c d : Chars} (ha : IsOctet a) (hb : IsOctet b) (hc : IsOctet c)
    (hd : IsOctet d) {address : IpAddress} (h : readAddress (quadText a b c d) = some address) :
    Anonymized (quadText a b c d) address := by
  have hcolon : ':' ∉ quadText a b c d := by
    have hoctet : ∀ s, IsOctet s → ':' ∉ s := fun s hs => hs.notMem rfl
    simp [quadText, hoctet, ha, hb, hc, hd]
  have hpre : ¬ mappedPrefix.isPrefixOf (quadText a b c d) = true := by
    rw [List.isPrefixOf_iff_prefix]
    intro hp
    exact hcolon (hp.subset (by decide))
  have htext := anonymizeText_quad (w := []) (by simp) ha hb hc hd
  rw [List.nil_append, List.nil_append, ← stripMapped_of_not hpre] at htext
  rw [anonymized_iff_of_eq (by simp [quadText]) htext]
  rw [readAddress, readQuad_quadText ha hb hc hd] at h
  cases h
  rw [readAddress, readQuad_quadText ha hb hc isOctet_zero]
  rfl

theorem anonymized_of_read {ip : Chars} {address : IpAddress} (h : readAddress ip = some address) :
    Anonymized ip address ↔ Sound ip := by
  rw [Sound]
  cases hquad : readQuad ip with
  | some q =>
      obtain ⟨a, b, c, d, rfl, ha, hb, hc, hd, -⟩ := exists_of_readQuad hquad
      simp [anonymized_quad ha hb hc hd h]
  | none =>
      rw [readAddress, hquad] at h
      obtain ⟨groups, hgroups, rfl⟩ := Option.map_eq_some_iff.1 h
      simp [hgroups, anonymized_iff_of_form (readGroups_iff.1 hgroups)]

/-- An address is stored without its last parts if and only if its spelling can be cut,
and then any other that differs in these parts alone is stored as the same. -/
theorem anonymizeIp_iff {ip : Chars} {address : IpAddress} (h : readAddress ip = some address) :
    (Anonymized ip address ↔ Sound ip) ∧
      ∀ ip' address', readAddress ip' = some address' → mask address' = mask address →
        Sound ip → Sound ip' → ∃ out out' stored, anonymizeIp (some ip) = some out ∧
          anonymizeIp (some ip') = some out' ∧ readAddress out = some stored ∧
          readAddress out' = some stored := by
  constructor
  · exact anonymized_of_read h
  · intro ip' address' h' hmask hsound hsound'
    obtain ⟨out, hout, hread⟩ := (anonymized_of_read h).2 hsound
    obtain ⟨out', hout', hread'⟩ := (anonymized_of_read h').2 hsound'
    exact ⟨out, out', mask address, hout, hout', hread, hmask ▸ hread'⟩

theorem anonymizeIp_iff_compressed :
    readAddress "2001:db8::7".toList = some (.v6 [0x2001, 0xdb8, 0, 0, 0, 0, 0, 7]) ∧
      Anonymized "2001:db8::7".toList (.v6 [0x2001, 0xdb8, 0, 0, 0, 0, 0, 7]) := by
  have h : readAddress "2001:db8::7".toList = some (.v6 [0x2001, 0xdb8, 0, 0, 0, 0, 0, 7]) := by
    decide
  refine ⟨h, (anonymizeIp_iff h).1.2 (.inr ⟨_, rfl, ?_⟩)⟩
  simp [Cuttable, cut, Mapped, mappedGroups]

/-- A second group behind the gap leaves two gaps, which is no address. -/
theorem not_anonymized_two_groups :
    ¬ ∀ ip address, readAddress ip = some address → Anonymized ip address := by
  intro h
  obtain ⟨out, hout, hread⟩ := h "2001:db8::1:2".toList (.v6 [0x2001, 0xdb8, 0, 0, 0, 0, 1, 2]) (by decide)
  cases hout
  revert hread
  decide

end WhatStore.Privacy
