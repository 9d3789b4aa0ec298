import CardFilter.Vocabulary

/-!
# The standard vocabulary

The keys of a card catalog, `CardFilter.Vocabulary.standard`, with the value sets of those whose
values are few.
-/

namespace CardFilter

/-- The colours and the names of their combinations. -/
def colorNames : List String := [
  "white", "blue", "black", "red", "green", "colorless", "multicolor", "azorius", "dimir",
  "rakdos", "gruul", "selesnya", "orzhov", "izzet", "golgari", "boros", "simic", "bant", "esper",
  "grixis", "jund", "naya", "abzan", "jeskai", "sultai", "mardu", "temur"]

/-- Card types and supertypes. -/
def typeNames : List String := [
  "artifact", "battle", "creature", "enchantment", "instant", "kindred", "land", "legendary",
  "planeswalker", "snow", "sorcery", "basic", "token"]

/-- What a card can be, for `is` and `not`. -/
def propertyNames : List String := [
  "foil", "nonfoil", "etched", "glossy", "full", "fullart", "promo", "reprint", "reserved",
  "spotlight", "commander", "companion", "digital", "funny", "hires", "split", "flip",
  "transform", "mdfc", "meld", "leveler", "dfc", "scryland", "scryfallpreview", "fetchland",
  "shockland", "dual", "bounceland", "checkland", "fastland", "painland", "manland", "vanilla",
  "frenchvanilla", "permanent", "spell", "historic", "party", "modal"]

/-- Formats of play. -/
def formatNames : List String := [
  "standard", "future", "historic", "timeless", "gladiator", "pioneer", "explorer", "modern",
  "legacy", "pauper", "vintage", "penny", "commander", "oathbreaker", "brawl", "standardbrawl",
  "alchemy", "paupercommander", "duel", "oldschool", "premodern", "predh"]

/-- Rarities of a printing. -/
def rarityNames : List String := [
  "common", "uncommon", "rare", "special", "mythic", "bonus"]

/-- Where a card can be played. -/
def gameNames : List String := [
  "paper", "arena", "mtgo"]

/-- Border colours. -/
def borderNames : List String := [
  "black", "white", "borderless", "silver", "gold"]

/-- Frame editions and effects. -/
def frameNames : List String := [
  "1993", "1997", "2003", "2015", "future", "legendary", "colorshifted", "tombstone",
  "enchantment", "showcase", "extendedart", "etched"]

/-- What a card can have. -/
def featureNames : List String := [
  "watermark", "indicator", "flavor", "security_stamp"]

/-- The keys of a card catalog. -/
def standardKeys : List Key := [
  ⟨"name", [], none, .equalityOnly⟩,
  ⟨"color", ["c"], some colorNames, .allComparisons⟩,
  ⟨"identity", ["id", "ci"], some colorNames, .allComparisons⟩,
  ⟨"type", ["t"], some typeNames, .equalityOnly⟩,
  ⟨"oracle", ["o"], none, .equalityOnly⟩,
  ⟨"keyword", ["kw"], none, .equalityOnly⟩,
  ⟨"mana", ["m"], none, .allComparisons⟩,
  ⟨"manavalue", ["mv", "cmc"], none, .allComparisons⟩,
  ⟨"power", ["pow"], none, .allComparisons⟩,
  ⟨"toughness", ["tou"], none, .allComparisons⟩,
  ⟨"loyalty", ["loy"], none, .allComparisons⟩,
  ⟨"rarity", ["r"], some rarityNames, .allComparisons⟩,
  ⟨"set", ["s", "e", "edition"], none, .equalityOnly⟩,
  ⟨"artist", ["a"], none, .equalityOnly⟩,
  ⟨"flavor", ["ft"], none, .equalityOnly⟩,
  ⟨"is", [], some propertyNames, .equalityOnly⟩,
  ⟨"not", [], some propertyNames, .equalityOnly⟩,
  ⟨"has", [], some featureNames, .equalityOnly⟩,
  ⟨"format", ["f", "fo"], some formatNames, .equalityOnly⟩,
  ⟨"banned", [], some formatNames, .equalityOnly⟩,
  ⟨"restricted", [], some formatNames, .equalityOnly⟩,
  ⟨"game", [], some gameNames, .equalityOnly⟩,
  ⟨"border", [], some borderNames, .equalityOnly⟩,
  ⟨"frame", [], some frameNames, .equalityOnly⟩,
  ⟨"year", [], none, .allComparisons⟩,
  ⟨"date", [], none, .allComparisons⟩,
  ⟨"usd", ["price"], none, .allComparisons⟩,
  ⟨"language", ["lang"], none, .equalityOnly⟩]

/-- The positions of these keys, by spelling. -/
def standardIndex : SpellingIndex :=
  (standardKeys.zipIdx.flatMap fun e => e.1.spellings.map fun s => (s, e.2)).reverse

theorem indexKeys_standardKeys : indexKeys 0 [] standardKeys = .ok standardIndex := by
  rfl

/-- **The standard vocabulary.** -/
def Vocabulary.standard : Vocabulary :=
  ⟨standardKeys, standardIndex, IsIndex.nil.append indexKeys_standardKeys⟩

end CardFilter
