import ComplexityMeter.Text.Character

/-!
# Emoji codes

A name between two colons stands for an emoji, in upper case as in lower case. A name that no emoji
has stays as it is, together with its colons.
-/

namespace ComplexityMeter.Terminal.Emoji

/-- The emoji whose names are one word of at most six letters, each with its code point. -/
def table : String :=
"a=1f170 ab=1f18e abacus=1f9ee abc=1f524 abcd=1f521 accept=1f251 alien=1f47d anchor=2693
angel=1f47c anger=1f4a2 angry=1f620 ant=1f41c apple=1f34e aries=2648 art=1f3a8 atm=1f3e7 axe=1fa93
b=1f171 baby=1f476 back=1f519 bacon=1f953 badger=1f9a1 bagel=1f96f bald=1f9b2 bamboo=1f38d
banana=1f34c banjo=1fa95 bank=1f3e6 barber=1f488 basket=1f9fa bat=1f987 bath=1f6c0 bear=1f43b
bed=1f6cf bee=1f41d beer=1f37a beers=1f37b beetle=1f41e bell=1f514 bento=1f371 bike=1f6b2
bikini=1f459 bird=1f426 blush=1f60a boar=1f417 boat=26f5 bomb=1f4a3 bone=1f9b4 book=1f4d6
books=1f4da boom=1f4a5 boot=1f462 bow=1f647 boy=1f466 brain=1f9e0 bread=1f35e brick=1f9f1
briefs=1fa72 broom=1f9f9 bug=1f41b bulb=1f4a1 bus=1f68c butter=1f9c8 cactus=1f335 cake=1f370
camel=1f42b camera=1f4f7 cancer=264b candle=1f56f candy=1f36c canoe=1f6f6 car=1f697 carrot=1f955
castle=1f3f0 cat=1f431 cd=1f4bf chains=26d3 chair=1fa91 chart=1f4b9 child=1f9d2 church=26ea
cinema=1f3a6 cl=1f191 clamp=1f5dc clap=1f44f cloud=2601 clubs=2663 coat=1f9e5 coffee=2615
coffin=26b0 comet=2604 cookie=1f36a cool=1f192 cop=1f46e corn=1f33d couple=1f46b cow=1f42e
crab=1f980 crayon=1f58d crown=1f451 cry=1f622 cupid=1f498 curry=1f35b dagger=1f5e1 dancer=1f483
dango=1f361 dart=1f3af dash=1f4a8 date=1f4c5 deer=1f98c desert=1f3dc dizzy=1f4ab dna=1f9ec
dog=1f436 dollar=1f4b5 dolls=1f38e door=1f6aa dove=1f54a dragon=1f409 dress=1f457 drum=1f941
duck=1f986 dvd=1f4c0 eagle=1f985 ear=1f442 egg=1f373 elf=1f9dd email=2709 end=1f51a euro=1f4b6
ewe=1f411 eye=1f441 eyes=1f440 fairy=1f9da family=1f46a fax=1f4e0 feet=1f43e ferry=26f4 fire=1f525
fish=1f41f fist=270a flags=1f38f fog=1f32b foggy=1f301 foot=1f9b6 free=1f193 fries=1f35f
frog=1f438 garlic=1f9c4 gear=2699 gem=1f48e gemini=264a genie=1f9de ghost=1f47b gift=1f381
girl=1f467 gloves=1f9e4 goat=1f410 goblin=1f47a golf=26f3 golfer=1f3cc grapes=1f347 grin=1f601
guard=1f482 guitar=1f3b8 gun=1f52b hammer=1f528 hand=270b hankey=1f4a9 heart=2764 hearts=2665
herb=1f33f hocho=1f52a hole=1f573 horse=1f434 hotel=1f3e8 house=1f3e0 houses=1f3d8 hushed=1f62f
ice=1f9ca id=1f194 imp=1f47f iphone=1f4f1 japan=1f5fe jeans=1f456 jigsaw=1f9e9 joker=1f0cf
joy=1f602 kaaba=1f54b key=1f511 kimono=1f458 kiss=1f48b kite=1fa81 knife=1f52a koala=1f428
koko=1f201 label=1f3f7 leaves=1f343 ledger=1f4d2 leg=1f9b5 lemon=1f34b leo=264c libra=264e
link=1f517 lips=1f444 lizard=1f98e llama=1f999 lock=1f512 locked=1f512 loop=27bf m=24c2 mag=1f50d
mage=1f9d9 magnet=1f9f2 man=1f468 mango=1f96d mask=1f637 mate=1f9c9 mega=1f4e3 melon=1f348
memo=1f4dd mens=1f6b9 metro=1f687 moai=1f5ff monkey=1f412 moon=1f314 mosque=1f54c mouse=1f42d
mouth=1f444 moyai=1f5ff muscle=1f4aa mute=1f507 new=1f195 ng=1f196 nose=1f443 notes=1f3b6 o=2b55
ocean=1f30a oden=1f362 office=1f3e2 ogre=1f479 ok=1f197 om=1f549 on=1f51b onion=1f9c5 otter=1f9a6
owl=1f989 ox=1f402 oyster=1f9aa pager=1f4df parrot=1f99c peach=1f351 pear=1f350 pen=1f58a
pencil=1f4dd phone=260e pick=26cf pie=1f967 pig=1f437 pill=1f48a pisces=2653 pistol=1f52b
pizza=1f355 poodle=1f429 poop=1f4a9 potato=1f954 pouch=1f45d pound=1f4b7 pray=1f64f prince=1f934
punch=1f44a purse=1f45b rabbit=1f430 radio=1f4fb rage=1f621 ram=1f40f ramen=1f35c rat=1f400
razor=1fa92 repeat=1f501 rewind=23ea ribbon=1f380 rice=1f35a ring=1f48d robot=1f916 rocket=1f680
rose=1f339 runner=1f3c3 sa=1f202 sake=1f376 salt=1f9c2 sandal=1f461 santa=1f385 sari=1f97b
scales=2696 scarf=1f9e3 school=1f3eb scream=1f631 scroll=1f4dc seat=1f4ba secret=3299 selfie=1f933
shark=1f988 sheep=1f411 shell=1f41a shield=1f6e1 ship=1f6a2 shirt=1f455 shit=1f4a9 shoe=1f45e
shorts=1fa73 shower=1f6bf shrimp=1f990 ski=1f3bf skier=26f7 skis=1f3bf skull=1f480 skunk=1f9a8
sled=1f6f7 sleepy=1f62a sloth=1f9a5 smile=1f604 smiley=1f603 smirk=1f60f snail=1f40c snake=1f40d
soap=1f9fc sob=1f62d soccer=26bd socks=1f9e6 soon=1f51c sos=1f198 sound=1f509 spades=2660
spider=1f577 sponge=1f9fd spoon=1f944 squid=1f991 star=2b50 stars=1f320 stew=1f372 sun=2600
sunny=2600 sunset=1f307 surfer=1f3c4 sushi=1f363 swan=1f9a2 sweat=1f613 taco=1f32e tada=1f389
taurus=2649 taxi=1f695 tea=1f375 ten=1f51f tennis=1f3be tent=26fa thread=1f9f5 ticket=1f3ab
tiger=1f42f tm=2122 toilet=1f6bd tomato=1f345 tongue=1f445 tooth=1f9b7 top=1f51d tophat=1f3a9
train=1f68b tram=1f68a trophy=1f3c6 truck=1f69a tshirt=1f455 tulip=1f337 turkey=1f983 turtle=1f422
tv=1f4fa unlock=1f513 up=1f199 v=270c vhs=1f4fc violin=1f3bb virgo=264d vs=1f19a waffle=1f9c7
watch=231a wave=1f44b wc=1f6be weary=1f629 whale=1f433 wink=1f609 wolf=1f43a woman=1f469
womens=1f6ba wrench=1f527 x=274c yarn=1f9f6 yen=1f4b4 yum=1f60b zap=26a1 zebra=1f993 zombie=1f9df
zzz=1f4a4"

def hexValue (c : Char) : Nat :=
  if c.isDigit then c.toNat - '0'.toNat else c.toNat - 'a'.toNat + 10

def find? (name : List Char) : Option Char :=
  let entry := name ++ ['=']
  (((table.splitOn "\n").flatMap fun line => line.splitOn " ").find? fun e =>
    entry.isPrefixOf e.toList).map fun e =>
      Char.ofNat ((e.toList.drop entry.length).foldl (fun n c => 16 * n + hexValue c) 0)

/-- Replaces codes; `run` holds what stands behind an open colon, the last character first. -/
def replaceAfter (run : Option (List Char)) : List Char → List Char
  | [] => (run.map fun run => ':' :: run.reverse).getD []
  | c :: rest =>
    match run with
    | none => if c = ':' then replaceAfter (some []) rest else c :: replaceAfter none rest
    | some run =>
      if c = ':' then
        match find? (run.reverse.map Char.toLower) with
        | some emoji => emoji :: replaceAfter none rest
        | none => ':' :: run.reverse ++ ':' :: replaceAfter none rest
      else if Text.isSpace c then ':' :: run.reverse ++ c :: replaceAfter none rest
      else replaceAfter (some (c :: run)) rest

def replaceCodes (cs : List Char) : List Char :=
  replaceAfter none cs

end ComplexityMeter.Terminal.Emoji
