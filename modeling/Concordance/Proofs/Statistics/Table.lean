import Concordance.Proofs.Sorting
import Concordance.Proofs.Statistics.Walk

/-!
# Concordance.Proofs.Statistics.Table

What stands in a table that was built, in which order, and where it is found.

* `content_of_build` — one entry for each term of the documents, with the answers of the lexicon;
* `arrangement_of_build` — the order of the entries, and that look-ups agree with it.
-/

namespace Concordance.Statistics

variable {l : Lexicon} {total : Nat} {field : String}

/-! ## sorting -/

theorem mayPrecede_trans (a b c : Entry) (hab : mayPrecede a b) (hbc : mayPrecede b c) :
    mayPrecede a c := by
  simp only [mayPrecede, decide_eq_true_eq] at hab hbc ⊢
  exact UInt64.le_trans hbc hab

theorem mayPrecede_total (a b : Entry) : mayPrecede a b || mayPrecede b a := by
  simpa [mayPrecede] using UInt64.le_total b.collectionFrequency a.collectionFrequency

theorem mem_entries_table {w : Walk} {e : Entry} :
    e ∈ (w.table total field).entries ↔ e ∈ w.entries := by
  simp [Walk.table]

theorem perm_terms_table (w : Walk) :
    ((w.table total field).entries.map Entry.term).Perm w.terms :=
  (List.mergeSort_perm w.entries.toList mayPrecede).map Entry.term

/-- Terms in a strict order are distinct. -/
theorem Walk.Tracks.nodup_terms {w : Walk} (h : w.Tracks l total field met counts) :
    w.terms.Nodup := by
  refine h.order.imp ?_
  rintro a b hlt rfl
  exact Nat.lt_irrefl _ hlt

/-! ## positions -/

theorem keys_positionsOf (entries : List Entry) :
    (entries.zipIdx.map fun (e, p) => (e.term, p)).map Prod.fst = entries.map Entry.term := by
  calc
    _ = (entries.zipIdx.map Prod.fst).map Entry.term := by simp only [List.map_map]; rfl
    _ = entries.map Entry.term := by rw [List.zipIdx_map_fst]

/-- In a list where no term has two entries every entry is found in its place. -/
theorem getElem?_positionsOf {entries : List Entry} (h : (entries.map Entry.term).Nodup)
    {e : Entry} {p : Nat} (hp : entries[p]? = some e) :
    (positionsOf entries)[e.term]? = some p := by
  rw [← keys_positionsOf] at h
  refine Std.HashMap.getElem?_ofList_of_mem (beq_self_eq_true _) ?_ ?_
  · exact (List.pairwise_map.mp h).imp beq_eq_false_iff_ne.mpr
  · exact List.mem_map.mpr ⟨(e, p), List.mk_mem_zipIdx_iff_getElem?.mpr hp, rfl⟩

theorem getElem?_positionsOf_of_not_mem {entries : List Entry} {term : String}
    (h : term ∉ entries.map Entry.term) : (positionsOf entries)[term]? = none := by
  refine Std.HashMap.getElem?_ofList_of_contains_eq_false ?_
  rw [keys_positionsOf]
  simpa using h

/-! ## tables that were built -/

/-- What a table is that was built: entries in order, with their positions. -/
structure Table.IsBuilt (l : Lexicon) (total : Nat) (field : String) (t : Table) : Prop where
  nodup : (t.entries.map Entry.term).Nodup
  mem_terms : ∀ term, term ∈ t.entries.map Entry.term ↔ term ∈ termsOf (countsBelow l field total)
  answered : ∀ e ∈ t.entries, e.IsAnswered l total field
  frequencies : ∀ e ∈ t.entries, e.termFrequencies =
    (List.range total).map fun d => lastFrequency (bagAt l field d) e.term
  order : t.entries.Pairwise fun a b => mayPrecede a b = true ∧ (mayPrecede b a = true →
    (termsOf (countsBelow l field total)).idxOf a.term <
      (termsOf (countsBelow l field total)).idxOf b.term)
  positions : t.positions = positionsOf t.entries

/-- The table of a walk that has noted the counts of all documents. -/
theorem Walk.Tracks.isBuilt {w : Walk}
    (h : w.Tracks l total field (termsOf (countsBelow l field total)) (countsBelow l field total)) :
    (w.table total field).IsBuilt l total field where
  nodup := (perm_terms_table w).nodup_iff.mpr h.nodup_terms
  mem_terms term := by rw [(perm_terms_table w).mem_iff, h.mem_terms]
  answered e he := h.answered e (mem_entries_table.mp he)
  frequencies e he := by
    rw [h.frequencies e (mem_entries_table.mp he)]
    refine List.map_congr_left fun d hd => ?_
    rw [bagIn_countsBelow, if_pos (List.mem_range.mp hd)]
  order := by
    have hmet := h.order
    rw [Walk.terms, List.pairwise_map] at hmet
    exact pairwise_mergeSort_stable mayPrecede_trans mayPrecede_total hmet
  positions := rfl

/-- **Content**: a table that was built has one entry for each term of the documents, with the
answers of the lexicon and, for each document, the frequency that its bag gives last. -/
theorem content_of_build (l : Lexicon) (total : Nat) (field : String) {t : Table}
    (h : (build l.recorded total field).answer = .ok t) :
    (t.entries.map Entry.term).Nodup ∧
      (∀ term, term ∈ t.entries.map Entry.term ↔
        ∃ d < total, ∃ bag, l.bag d field = .ok (some bag) ∧ term ∈ bag.map TermCount.term) ∧
      ∀ e ∈ t.entries,
        l.documentFrequency field e.term = .ok e.documentFrequency ∧
          l.collectionFrequency field e.term = .ok e.collectionFrequency ∧
          1 ≤ e.documentFrequency.toNat ∧ e.documentFrequency.toNat ≤ total ∧
          e.termFrequencies.length = total ∧
          ∀ d < total, ∃ bag, l.bag d field = .ok bag ∧
            e.termFrequencies[d]? = some (lastFrequency (bag.getD []) e.term) := by
  obtain ⟨hbags, w, rfl, hw⟩ := tracks_of_build h
  have ht := hw.isBuilt
  refine ⟨ht.nodup, fun term => ?_, fun e he => ?_⟩
  · rw [ht.mem_terms, mem_termsOf_countsBelow]
    simp only [mem_bagAt, List.mem_map]
    grind
  · have hanswered := ht.answered e he
    have hpos : 0 < e.documentFrequency.toNat :=
      Nat.pos_of_ne_zero fun hzero => hanswered.pos (UInt64.toNat_inj.mp hzero)
    refine ⟨hanswered.documentFrequency, hanswered.collectionFrequency, hpos, hanswered.le, ?_, ?_⟩
    · rw [ht.frequencies e he, List.length_map, List.length_range]
    · intro d hd
      obtain ⟨bag, hbag⟩ := hbags d hd
      refine ⟨bag, hbag, ?_⟩
      rw [ht.frequencies e he, List.getElem?_map, List.getElem?_range hd, Option.map_some,
        bagAt_of_ok hbag]

/-- Three documents: a bag that lists a term twice, no bag, and a bag with one term. -/
def threeDocuments : Lexicon where
  generation := 0
  total := .ok 3
  documentFrequency _ _ := .ok 2
  collectionFrequency _ _ := .ok 4
  bag d _ := .ok ([some [⟨"cat", 2⟩, ⟨"dog", 1⟩, ⟨"cat", 5⟩], none, some [⟨"dog", 3⟩]].getD d none)

theorem build_threeDocuments :
    ∃ t, (build threeDocuments.recorded 3 "content").answer = .ok t := by
  refine exists_build (fun d _ => ⟨_, rfl⟩) fun d _ c _ => ⟨⟨2, rfl, ?_, ?_⟩, 4, rfl⟩
  · decide
  · decide

/-- Of a term that a bag lists twice the last frequency counts. -/
theorem content_of_build_threeDocuments :
    ∃ t, (build threeDocuments.recorded 3 "content").answer = .ok t ∧
      ∃ e ∈ t.entries, e.term = "cat" ∧ e.termFrequencies = [5, 0, 0] := by
  obtain ⟨t, ht⟩ := build_threeDocuments
  obtain ⟨-, hterms, hentries⟩ := content_of_build threeDocuments 3 "content" ht
  have hcat : "cat" ∈ t.entries.map Entry.term :=
    (hterms "cat").mpr ⟨0, by decide, _, rfl, by decide⟩
  obtain ⟨e, he, hterm⟩ := List.mem_map.mp hcat
  obtain ⟨-, -, -, -, hlength, hfrequencies⟩ := hentries e he
  refine ⟨t, ht, e, he, hterm, ?_⟩
  refine List.ext_getElem? fun d => ?_
  by_cases hd : d < 3
  · obtain ⟨bag, hbag, hd'⟩ := hfrequencies d hd
    rw [hd', hterm]
    obtain rfl := Except.ok.inj hbag
    match d, hd with
    | 0, _ => decide
    | 1, _ => decide
    | 2, _ => decide
  · rw [List.getElem?_eq_none (by omega), List.getElem?_eq_none (by simpa using hd)]

/-! ## order and look-up -/

theorem Table.IsBuilt.lookup_of_mem {t : Table} (ht : t.IsBuilt l total field) {e : Entry}
    (he : e ∈ t.entries) : t.lookup e.term = some e := by
  obtain ⟨p, hp⟩ := List.mem_iff_getElem?.mp he
  rw [Table.lookup, ht.positions, getElem?_positionsOf ht.nodup hp, Option.bind_some, hp]

theorem Table.IsBuilt.lookup_of_not_mem {t : Table} (ht : t.IsBuilt l total field) {term : String}
    (h : ∀ e ∈ t.entries, e.term ≠ term) : t.lookup term = none := by
  have hterm : term ∉ t.entries.map Entry.term := by simpa using h
  rw [Table.lookup, ht.positions, getElem?_positionsOf_of_not_mem hterm, Option.bind_none]

/-- What is looked up for a term is the entry of this term. -/
theorem Table.IsBuilt.term_of_lookup {t : Table} (ht : t.IsBuilt l total field) {term : String}
    {e : Entry} (h : t.lookup term = some e) : e.term = term := by
  by_cases hterm : ∃ e' ∈ t.entries, e'.term = term
  · obtain ⟨e', he', rfl⟩ := hterm
    rw [ht.lookup_of_mem he', Option.some.injEq] at h
    rw [h]
  · rw [ht.lookup_of_not_mem fun e' he' heq => hterm ⟨e', he', heq⟩] at h
    cases h

/-- **Order and look-up**: the entries stand by collection frequency and then by where a walk first
meets their terms, every term is looked up in its place, and the top of the
table is its beginning. -/
theorem arrangement_of_build (l : Lexicon) (total : Nat) (field : String) {t : Table}
    (h : (build l.recorded total field).answer = .ok t) :
    (t.entries.Pairwise fun a b =>
      b.collectionFrequency < a.collectionFrequency ∨
        a.collectionFrequency = b.collectionFrequency ∧
          (termsOf (countsBelow l field total)).idxOf a.term <
            (termsOf (countsBelow l field total)).idxOf b.term) ∧
      ((∀ e ∈ t.entries, t.lookup e.term = some e) ∧
        ∀ term, (∀ e ∈ t.entries, e.term ≠ term) → t.lookup term = none) ∧
      ∀ n, t.top n = t.entries.take (min n t.entries.length) ∧
        ∀ a ∈ t.top n, ∀ b ∈ t.entries.drop (min n t.entries.length),
          b.collectionFrequency ≤ a.collectionFrequency := by
  obtain ⟨-, w, rfl, hw⟩ := tracks_of_build h
  have ht := hw.isBuilt
  refine ⟨ht.order.imp fun {a b} => ?_, ⟨fun e => ht.lookup_of_mem, fun term => ht.lookup_of_not_mem⟩,
    fun n => ⟨rfl, ?_⟩⟩
  · rintro ⟨hle, htie⟩
    simp only [mayPrecede, decide_eq_true_eq] at hle htie
    obtain hlt | heq := UInt64.lt_or_eq_of_le hle
    · exact .inl hlt
    · exact .inr ⟨heq.symm, htie (UInt64.le_of_eq heq.symm)⟩
  · have hsplit := ht.order
    rw [← List.take_append_drop (min n _) (Walk.table total field w).entries,
      List.pairwise_append] at hsplit
    intro a ha b hb
    simpa [mayPrecede] using (hsplit.2.2 a ha b hb).1

/-- Of two terms with equal collection frequencies the one met first stands first, and a term that
no document has is not found. -/
theorem arrangement_of_build_threeDocuments :
    ∃ t, (build threeDocuments.recorded 3 "content").answer = .ok t ∧
      t.entries.map Entry.term = ["cat", "dog"] ∧ t.lookup "owl" = none := by
  obtain ⟨t, ht⟩ := build_threeDocuments
  obtain ⟨horder, ⟨-, hnone⟩, -⟩ := arrangement_of_build threeDocuments 3 "content" ht
  obtain ⟨-, w, rfl, hw⟩ := tracks_of_build ht
  have hbuilt := hw.isBuilt
  have hcounts : termsOf (countsBelow threeDocuments "content" 3) =
      ["cat", "dog", "cat", "dog"] := by decide
  have hterms : ∀ term, term ∈ (w.table 3 "content").entries.map Entry.term ↔
      term ∈ ["cat", "dog"] := fun term => by
    rw [hbuilt.mem_terms, hcounts]
    grind
  have hfrequency : ∀ e ∈ (w.table 3 "content").entries, e.collectionFrequency = 4 := fun e he =>
    (Except.ok.inj (hbuilt.answered e he).collectionFrequency).symm
  have hsorted : ((w.table 3 "content").entries.map Entry.term).Pairwise fun a b =>
      ["cat", "dog", "cat", "dog"].idxOf a < ["cat", "dog", "cat", "dog"].idxOf b := by
    refine List.pairwise_map.mpr (horder.imp_of_mem fun {a b} ha hb hab => ?_)
    rw [hfrequency a ha, hfrequency b hb, hcounts] at hab
    simpa using hab
  have hperm : ((w.table 3 "content").entries.map Entry.term).Perm ["cat", "dog"] :=
    (List.perm_ext_iff_of_nodup hbuilt.nodup (by decide)).mpr hterms
  refine ⟨_, ht, ?_, hnone "owl" fun e he howl => ?_⟩
  · exact hperm.eq_of_pairwise (fun a b _ _ hab hba => absurd hab (Nat.lt_asymm hba)) hsorted
      (by decide)
  · have hmem := (hterms e.term).mp (List.mem_map_of_mem he)
    rw [howl] at hmem
    exact absurd hmem (by decide)

end Concordance.Statistics
