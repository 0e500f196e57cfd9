import AdminPlane.Proofs.Json.Loose
import AdminPlane.Proofs.Json.Settled

namespace AdminPlane.Json

open AdminPlane.Text AdminPlane.Text.Ascii

/-- Two outcomes that show no difference if they are errors, and related values otherwise. -/
inductive Alike (R : α → β → Prop) : Except ε α → Except ε β → Prop
  | ok {x : α} {y : β} (h : R x y) : Alike R (.ok x) (.ok y)
  | error (e : ε) : Alike R (.error e) (.error e)

/-- Related values in front of one rest. -/
def AndRest (R : α → β → Prop) (p : α × List UInt8) (q : β × List UInt8) : Prop :=
  R p.1 q.1 ∧ p.2 = q.2

theorem alike_refl (o : Except ε (α × List UInt8)) : Alike (AndRest (· = ·)) o o := by
  cases o with
  | ok p => exact .ok ⟨rfl, rfl⟩
  | error e => exact .error e

theorem alike_bind {R : α → α' → Prop} {R' : β → β' → Prop} {r : Reader α} {r' : Reader α'}
    {f : α → Reader β} {f' : α' → Reader β'} {s s' : List UInt8}
    (h : Alike (AndRest R) (r s) (r' s'))
    (hf : ∀ x y u, R x y → Alike (AndRest R') (f x u) (f' y u)) :
    Alike (AndRest R') ((r >>= f) s) ((r' >>= f') s') := by
  change Alike _ (r s >>= fun p => f p.1 p.2) (r' s' >>= fun p => f' p.1 p.2)
  generalize r s = o, r' s' = o' at h
  cases h with
  | @ok p p' h =>
    obtain ⟨x, u⟩ := p
    obtain ⟨y, u'⟩ := p'
    obtain ⟨hxy, rfl⟩ := h
    exact hf x y u hxy
  | error fault => exact .error fault

/-- Readers that begin in the same way on one text. -/
theorem alike_bind_same {R : β → β' → Prop} (r : Reader α) {f : α → Reader β}
    {f' : α → Reader β'} (s : List UInt8) (hf : ∀ x u, Alike (AndRest R) (f x u) (f' x u)) :
    Alike (AndRest R) ((r >>= f) s) ((r >>= f') s) := by
  refine alike_bind (alike_refl (r s)) fun x y u hxy => ?_
  subst hxy
  exact hf x u

theorem alike_fails {R : α → α → Prop} {r : Reader α} (h : Fails r) (s : List UInt8) :
    Alike (AndRest R) (r s) (r s) := by
  cases hr : r s with
  | ok y => exact absurd hr (h s y)
  | error fault => exact .error fault

theorem alike_failNext {R : α → α → Prop} (cause : Cause) {s s' : List UInt8}
    (hlength : s.length = s'.length) :
    Alike (AndRest R) ((failNext cause : Reader α) s) ((failNext cause : Reader α) s') := by
  rw [failNext, hlength]
  exact .error _

/-- A settled part is read to the same end in front of two rests of one length. -/
theorem Settles.alike {r : Reader α} {u : List UInt8} (h : Settles r u) {R : β → β' → Prop}
    {f : α → Reader β} {f' : α → Reader β'} {s s' : List UInt8} (hs : Follows s)
    (hs' : Follows s') (hlength : s.length = s'.length)
    (hf : ∀ x, Alike (AndRest R) (f x s) (f' x s')) :
    Alike (AndRest R) ((r >>= f) (u ++ s)) ((r >>= f') (u ++ s')) := by
  obtain ⟨outcome, h⟩ := h
  cases outcome with
  | ok x =>
    rw [bind_of_ok (h s hs), bind_of_ok (h s' hs')]
    exact hf x
  | error fault =>
    rw [bind_of_error (h s hs), bind_of_error (h s' hs'), hlength]
    exact .error _

theorem follows_colon {w : List UInt8} (hw : Blank w) (s : List UInt8) :
    Follows (w ++ colon :: s) :=
  follows_blank hw (follows_cons (by decide) s)

namespace Member

variable {fields : List (Member σ)} {R : σ → σ → Prop}

theorem failDuplicate_colon {w : List UInt8} (hw : Blank w) (name : String) (s : List UInt8) :
    (failDuplicate name : Reader σ) (w ++ colon :: s) =
      .error ⟨.duplicateField name, s.length + 1⟩ := by
  rw [failDuplicate, onToken_blank hw, bind_of_ok (peekToken_cons (by decide))]
  rfl

/-- Fields that make nothing of the difference between related drafts. -/
def Respects (fields : List (Member σ)) (R : σ → σ → Prop) : Prop :=
  ∀ field ∈ fields, ∀ d d', R d d' → field.given d = field.given d' ∧
    (field.given d = false → ∀ s, Alike (AndRest R) (field.read d s) (field.read d' s))

theorem alike_members (hf : Respects fields R) (fuel : Nat) (isFirst : Bool) {d d' : σ}
    (h : R d d') (s : List UInt8) :
    Alike (AndRest R) (members fields fuel isFirst d s) (members fields fuel isFirst d' s) := by
  induction fuel generalizing isFirst d d' s with
  | zero => exact .error _
  | succ fuel ih =>
    rw [members, members]
    refine alike_bind_same _ _ fun another u => ?_
    cases another with
    | false => exact .ok ⟨h, rfl⟩
    | true =>
      refine alike_bind_same _ _ fun name u => ?_
      cases hfind : fields.find? (·.name = name) with
      | none =>
        exact alike_bind_same _ _ fun _ u => alike_bind_same _ _ fun _ u => ih false h u
      | some field =>
        obtain ⟨hgiven, hread⟩ := hf field (List.mem_of_find?_eq_some hfind) d d' h
        dsimp only
        rw [← hgiven]
        cases hd : field.given d with
        | true => exact alike_fails (fails_failDuplicate name) u
        | false =>
          refine alike_bind_same _ _ fun _ u => ?_
          exact alike_bind (hread hd u) fun x y u hxy => ih false hxy u

/-- Fields that are read from a value alone. -/
def Local (fields : List (Member σ)) : Prop :=
  ∀ field ∈ fields, ∀ d, Padded (field.read d) ∧ ∀ v, IsValue v → Settles (field.read d) v

/-- Behind its name, a member is reported if its field has come before, and read otherwise. -/
theorem alike_known {field : Member σ} {d : σ} (hpad : Padded (field.read d))
    {f : σ → Reader σ} {w w' s s' : List UInt8} (hw : Blank w) (hw' : Blank w')
    (hlength : s.length = s'.length)
    (hread : Alike (AndRest R) ((field.read d >>= f) s) ((field.read d >>= f) s')) (name : String) :
    Alike (AndRest R)
      ((if field.given d then failDuplicate name else do
        nameEnd
        let draft ← field.read d
        f draft : Reader σ) (w ++ colon :: (w' ++ s)))
      ((if field.given d then failDuplicate name else do
        nameEnd
        let draft ← field.read d
        f draft : Reader σ) (w ++ colon :: (w' ++ s'))) := by
  cases field.given d with
  | true =>
    rw [if_pos rfl, failDuplicate_colon hw, failDuplicate_colon hw, List.length_append, hlength,
      ← List.length_append]
    exact .error _
  | false =>
    rw [if_neg (by decide), bind_of_ok (nameEnd_colon hw _), bind_of_ok (nameEnd_colon hw _),
      padded_bind _ hpad w' _ hw', padded_bind _ hpad w' _ hw']
    exact hread

/-- A member is read to the same end in front of two rests of one length. -/
theorem alike_member (hlocal : Local fields) {key head v lead w : List UInt8}
    (hkey : IsChars key) (hhead : Heads (Ascii.quote :: (key ++ [Ascii.quote])) head)
    (hv : IsValue v) {isFirst : Bool} (hlead : Leads isFirst lead) (hw : Blank w) (fuel : Nat)
    (d : σ) {s s' : List UInt8} (hs : Follows s) (hs' : Follows s')
    (hlength : s.length = s'.length)
    (hrest : ∀ d, Alike (AndRest R) (members fields fuel false d s)
      (members fields fuel false d s')) :
    Alike (AndRest R)
      (members fields (fuel + 1) isFirst d (lead ++ (w ++ (head ++ (v ++ s)))))
      (members fields (fuel + 1) isFirst d (lead ++ (w ++ (head ++ (v ++ s'))))) := by
  obtain ⟨w₁, w₂, hw₁, hw₂, rfl⟩ := hhead
  have hnext : ∀ s, nextMember isFirst (lead ++ (w ++
      (Ascii.quote :: (key ++ [Ascii.quote]) ++ (w₁ ++ colon :: w₂) ++ (v ++ s)))) =
        .ok (true, Ascii.quote :: (key ++ [Ascii.quote]) ++ (w₁ ++ colon :: (w₂ ++ (v ++ s)))) := by
    intro s
    simp only [List.append_assoc, List.cons_append]
    exact nextMember_leads hlead hw _
  rw [members, bind_of_ok (hnext s), bind_of_ok (hnext s'), if_pos rfl]
  refine (Text.settles_read hkey).alike (follows_colon hw₁ _) (follows_colon hw₁ _)
    (by simp only [List.length_append, List.length_cons, hlength]) fun name => ?_
  cases hfind : fields.find? (·.name = name) with
  | none =>
    dsimp only
    rw [bind_of_ok (nameEnd_colon hw₁ _), bind_of_ok (nameEnd_colon hw₁ _),
      bind_of_ok (Skip.any_value hv hw₂ hs), bind_of_ok (Skip.any_value hv hw₂ hs')]
    exact hrest d
  | some field =>
    obtain ⟨hpad, hsettles⟩ := hlocal field (List.mem_of_find?_eq_some hfind) d
    have hread := (hsettles v hv).alike hs hs' hlength hrest
    exact alike_known hpad hw₁ hw₂ (by simp only [List.length_append, hlength]) hread name

/-- Up to the value that differs, members are read to the same end. -/
theorem alike_ahead (hlocal : Local fields) {ms : List (List UInt8 × List UInt8)} {t : List UInt8}
    (hheads : ∀ m ∈ ms, ∃ key, IsChars key ∧
      Heads (Ascii.quote :: (key ++ [Ascii.quote])) m.1)
    (hvalues : ∀ m ∈ ms, IsValue m.2) (ht : Ahead (ms.map fun m => m.1 ++ m.2) t)
    {s s' : List UInt8} (hlength : s.length = s'.length)
    (hlast : ∀ fuel isFirst d lead w, Leads isFirst lead → Blank w → Alike (AndRest R)
      (members fields (fuel + 1) isFirst d (lead ++ (w ++ s)))
      (members fields (fuel + 1) isFirst d (lead ++ (w ++ s'))))
    (fuel : Nat) {isFirst : Bool} (d : σ) {lead : List UInt8} (hlead : Leads isFirst lead) :
    Alike (AndRest R) (members fields fuel isFirst d (lead ++ (t ++ s)))
      (members fields fuel isFirst d (lead ++ (t ++ s'))) := by
  induction fuel generalizing ms t isFirst d lead with
  | zero => exact alike_failNext _ (by simp only [List.length_append, hlength])
  | succ fuel ih =>
    cases ms with
    | nil =>
      cases ht with
      | nil hw => exact hlast fuel isFirst d lead t hlead hw
    | cons m ms =>
      cases ht with
      | @cons w w' _ _ t hw hw' ht =>
        obtain ⟨key, hkey, hhead⟩ := hheads m (.head _)
        have hcomma : Leads false (w' ++ [comma]) := .inr ⟨rfl, w', hw', rfl⟩
        have hrest := fun d => ih (fun m hm => hheads m (.tail _ hm))
          (fun m hm => hvalues m (.tail _ hm)) ht d hcomma
        have hfollows : ∀ s, Follows (w' ++ [comma] ++ (t ++ s)) := by
          intro s
          rw [List.append_assoc]
          exact follows_blank hw' (follows_comma _)
        have hmember := alike_member hlocal hkey hhead (hvalues m (.head _)) hlead hw fuel d
          (hfollows s) (hfollows s') (by simp only [List.length_append, hlength]) hrest
        simpa only [List.append_assoc, List.cons_append, List.nil_append] using hmember

/-- The fields show no more of the values `v` and `v'` of the member `name` than that their drafts
are related by `R`. -/
structure Masks (fields : List (Member σ)) (name : String) (R : σ → σ → Prop)
    (v v' : List UInt8) : Prop where
  confined : Local fields
  respects : Respects fields R
  length_eq : v.length = v'.length
  swapped : ∃ field, fields.find? (·.name = name) = some field ∧
    ∀ d q, Alike (AndRest R) (field.read d (v ++ q)) (field.read d (v' ++ q))

variable {name : String} {v v' : List UInt8}

/-- The member whose value differs, and all members behind it. -/
theorem alike_swapped (h : Masks fields name R v v') {key head lead w : List UInt8}
    (hkey : Spelt name key) (hhead : Heads key head) {isFirst : Bool} (hlead : Leads isFirst lead)
    (hw : Blank w) (fuel : Nat) (d : σ) (q : List UInt8) :
    Alike (AndRest R) (members fields (fuel + 1) isFirst d (lead ++ (w ++ (head ++ (v ++ q)))))
      (members fields (fuel + 1) isFirst d (lead ++ (w ++ (head ++ (v' ++ q))))) := by
  obtain ⟨w₁, w₂, hw₁, hw₂, rfl⟩ := hhead
  obtain ⟨field, hfind, hread⟩ := h.swapped
  have hpad := (h.confined field (List.mem_of_find?_eq_some hfind) d).1
  have hnext : ∀ v, nextMember isFirst (lead ++ (w ++ (key ++ (w₁ ++ colon :: w₂) ++ (v ++ q)))) =
      .ok (true, key ++ (w₁ ++ colon :: (w₂ ++ (v ++ q)))) := by
    intro v
    obtain ⟨pieces, _, rfl⟩ := hkey
    simp only [List.append_assoc, List.cons_append]
    exact nextMember_leads hlead hw _
  have hname := fun v => Text.read_spelt hkey (w₁ ++ colon :: (w₂ ++ (v ++ q)))
  rw [members, bind_of_ok (hnext v), bind_of_ok (hnext v'), if_pos rfl, bind_of_ok (hname v),
    bind_of_ok (hname v'), hfind]
  refine alike_known hpad hw₁ hw₂ (by simp only [List.length_append, h.length_eq]) ?_ name
  exact alike_bind (hread d q) fun x y u hxy => alike_members h.respects fuel false hxy u

/-- All members of an object, with as much fuel as the text can need. -/
def allMembers (fields : List (Member σ)) (start : σ) : Reader σ := fun s =>
  members fields (s.length + 1) true start s

/-- What is read of a record behind its brace. -/
def inside (fields : List (Member σ)) (start : σ) (finish : σ → Except String α) : Reader α := do
  let draft ← allMembers fields start
  advance
  match finish draft with
  | .ok x => pure x
  | .error missing => fail (.missingField missing)

theorem readRecord_brace (record : String) (fields : List (Member σ)) (start : σ)
    (finish : σ → Except String α) {w : List UInt8} (hw : Blank w) (s : List UInt8) :
    readRecord record fields start finish (w ++ openBrace :: s) = inside fields start finish s := by
  rw [readRecord, padded_value _ _ w _ hw,
    value_cons (by decide) ((if_neg (by decide)).trans (if_pos rfl)), bind_of_ok (advance_cons _ _)]
  rfl

variable {start : σ} {finish : σ → Except String α} {R' : α → α → Prop}

theorem alike_inside (hfinish : ∀ d d', R d d' → Alike R' (finish d) (finish d'))
    {s s' : List UInt8}
    (hmembers : Alike (AndRest R) (allMembers fields start s) (allMembers fields start s')) :
    Alike (AndRest R') (inside fields start finish s) (inside fields start finish s') := by
  refine alike_bind hmembers fun d d' u hd => ?_
  refine alike_bind_same advance u fun _ u => ?_
  have hagree := hfinish d d' hd
  generalize finish d = o, finish d' = o' at hagree
  cases hagree with
  | ok hx => exact .ok ⟨hx, rfl⟩
  | error missing => exact .error _

/-- Two texts of a record that differ in the value of one member. -/
theorem alike_readRecord (h : Masks fields name R v v')
    (hfinish : ∀ d d', R d d' → Alike R' (finish d) (finish d')) {p : List UInt8}
    (hp : UpTo name p) (record : String) (q : List UInt8) :
    Alike (AndRest R') (readRecord record fields start finish (p ++ (v ++ q)))
      (readRecord record fields start finish (p ++ (v' ++ q))) := by
  obtain @⟨w, t, key, head, ms, hw, hheads, hvalues, ht, hkey, hhead⟩ := hp
  have hlength : (head ++ (v ++ q)).length = (head ++ (v' ++ q)).length := by
    simp only [List.length_append, h.length_eq]
  have hfuel : (t ++ (head ++ (v ++ q))).length = (t ++ (head ++ (v' ++ q))).length := by
    rw [List.length_append, hlength, ← List.length_append]
  have hmembers := alike_ahead h.confined hheads hvalues ht hlength
    (fun fuel isFirst d lead w hlead hw => alike_swapped h hkey hhead hlead hw fuel d q)
    ((t ++ (head ++ (v ++ q))).length + 1) start (.inl ⟨rfl, rfl⟩)
  simp only [List.append_assoc, List.cons_append, readRecord_brace _ _ _ _ hw]
  refine alike_inside hfinish ?_
  rwa [allMembers, allMembers, ← hfuel]

end Member

/-- The place of a fault shows no more of a document than where its lines end. -/
theorem locate_congr (fault : Fault) {u u' : List UInt8}
    (h : u.map (· == lineFeed) = u'.map (· == lineFeed)) : fault.locate u = fault.locate u' := by
  have hlength : u.length = u'.length := by
    simpa only [List.length_map] using congrArg List.length h
  have htake : (u.take (u.length - fault.left)).map (· == lineFeed) =
      (u'.take (u'.length - fault.left)).map (· == lineFeed) := by
    rw [List.map_take, List.map_take, h, hlength]
  unfold Fault.locate
  generalize u.take (u.length - fault.left) = b, u'.take (u'.length - fault.left) = b' at htake
  have hcount : ∀ b : List UInt8, b.count lineFeed = (b.map (· == lineFeed)).count true := by
    intro b
    rw [List.count, List.count, List.countP_map]
    congr
    funext c
    simp
  have hcolumn : ∀ b : List UInt8, (b.reverse.takeWhile (· ≠ lineFeed)).length =
      ((b.map (· == lineFeed)).reverse.takeWhile (! ·)).length := by
    intro b
    rw [← List.map_reverse, List.takeWhile_map, List.length_map]
    congr
    funext c
    simp [beq_eq_decide]
  simp only [hcount, hcolumn, htake]

theorem lines_of_not_mem {u : List UInt8} (h : lineFeed ∉ u) :
    u.map (· == lineFeed) = List.replicate u.length false := by
  rw [List.map_eq_replicate_iff]
  intro b hb
  exact beq_false_of_ne fun he => h (he ▸ hb)

theorem alike_decode {R : α → α → Prop} {r : Reader α} {u u' : List UInt8}
    (h : Alike (AndRest R) (r u) (r u'))
    (hlines : u.map (· == lineFeed) = u'.map (· == lineFeed)) :
    Alike R (decode r u) (decode r u') := by
  have hdocument : Alike (AndRest R) (document r u) (document r u') := by
    refine alike_bind h fun x y u hxy => alike_bind_same peekToken u fun next u => ?_
    cases next with
    | none => exact .ok ⟨hxy, rfl⟩
    | some b => exact .error _
  unfold decode
  generalize document r u = o, document r u' = o' at hdocument
  cases hdocument with
  | ok hxy => exact .ok hxy.1
  | error fault =>
    dsimp only
    rw [locate_congr fault hlines]
    exact .error _

theorem isSome_of_mem_mapM {f : α → Option β} {xs : List α} {ys : List β}
    (h : xs.mapM f = some ys) {x : α} (hx : x ∈ xs) : (f x).isSome = true := by
  induction xs generalizing ys with
  | nil => cases hx
  | cons z xs ih =>
    rw [List.mapM_cons] at h
    obtain ⟨y, hy, h⟩ := Option.bind_eq_some_iff.mp h
    obtain ⟨ys, hys, _⟩ := Option.bind_eq_some_iff.mp h
    rcases List.mem_cons.mp hx with rfl | hx
    · rw [hy]
      rfl
    · exact ih hys hx

theorem hexValue_one_line {digits : List UInt8} {n : Nat} (h : hexValue? digits = some n) :
    lineFeed ∉ digits := by
  intro hmem
  unfold hexValue? at h
  split at h
  · obtain ⟨ds, hds, _⟩ := Option.map_eq_some_iff.mp h
    exact absurd (isSome_of_mem_mapM hds hmem) (by decide)
  · cases h

theorem Denotes.one_line {u : List UInt8} {c : Char} (h : Denotes u c) : lineFeed ∉ u := by
  cases h with
  | plain hquote hbackslash hc =>
    exact fun hmem => absurd (Text.plain_of_mem hquote hbackslash hc hmem).2.2 (by decide)
  | @short letter b h =>
    have hletter : lineFeed ≠ letter := by
      rintro rfl
      cases h
    simp [hletter, show lineFeed ≠ backslash by decide]
  | unicode h hn =>
    simp [hexValue_one_line h, show lineFeed ≠ backslash by decide, show lineFeed ≠ lowerU by decide]
  | pair h h' hhigh hlow =>
    simp [hexValue_one_line h, hexValue_one_line h', show lineFeed ≠ backslash by decide,
      show lineFeed ≠ lowerU by decide]

/-- No text of a string holds the end of a line. -/
theorem Spelt.one_line {s : String} {text : List UInt8} (h : Spelt s text) :
    lineFeed ∉ text := by
  obtain ⟨pieces, hpieces, rfl⟩ := h
  have hall : lineFeed ∉ pieces.flatten := by
    generalize s.toList = cs at hpieces
    induction hpieces with
    | nil => exact List.not_mem_nil
    | cons hu _ ih => simp [hu.one_line, ih]
  simp [hall, show lineFeed ≠ Ascii.quote by decide]

end AdminPlane.Json
