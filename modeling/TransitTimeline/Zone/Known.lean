import TransitTimeline.Zone
import TransitTimeline.Zone.Season

/-! The zones that have a name, with the history of their clocks. A history tells the changes before the years
that a rule tells. -/
namespace TransitTimeline.Zone

def hour : Int := 3600

/-- No change is known after this year, and the last offset stays in force. -/
def lastYear : Int := 2099

def newYorkHistory : List (Int × Int) :=
  [(-2717650800, -18000), (-1633280400, -14400), (-1615140000, -18000), (-1601830800, -14400),
   (-1583690400, -18000), (-1570381200, -14400), (-1551636000, -18000), (-1536512400, -14400),
   (-1523210400, -18000), (-1504458000, -14400), (-1491760800, -18000), (-1473008400, -14400),
   (-1459706400, -18000), (-1441558800, -14400), (-1428256800, -18000), (-1410109200, -14400),
   (-1396807200, -18000), (-1378659600, -14400), (-1365357600, -18000), (-1347210000, -14400),
   (-1333908000, -18000), (-1315155600, -14400), (-1301853600, -18000), (-1283706000, -14400),
   (-1270404000, -18000), (-1252256400, -14400), (-1238954400, -18000), (-1220806800, -14400),
   (-1207504800, -18000), (-1189357200, -14400), (-1176055200, -18000), (-1157302800, -14400),
   (-1144605600, -18000), (-1125853200, -14400), (-1112551200, -18000), (-1094403600, -14400),
   (-1081101600, -18000), (-1062954000, -14400), (-1049652000, -18000), (-1031504400, -14400),
   (-1018202400, -18000), (-1000054800, -14400), (-986752800, -18000), (-968000400, -14400),
   (-955303200, -18000), (-936550800, -14400), (-923248800, -18000), (-905101200, -14400),
   (-891799200, -18000), (-880218000, -14400), (-765396000, -18000), (-747248400, -14400),
   (-733946400, -18000), (-715798800, -14400), (-702496800, -18000), (-684349200, -14400),
   (-671047200, -18000), (-652899600, -14400), (-639597600, -18000), (-620845200, -14400),
   (-608148000, -18000), (-589395600, -14400), (-576093600, -18000), (-557946000, -14400),
   (-544644000, -18000), (-526496400, -14400), (-513194400, -18000), (-495046800, -14400),
   (-481744800, -18000), (-463597200, -14400), (-447271200, -18000), (-431542800, -14400),
   (-415821600, -18000), (-400093200, -14400), (-384372000, -18000), (-368643600, -14400),
   (-352922400, -18000), (-337194000, -14400), (-321472800, -18000), (-305744400, -14400),
   (-289418400, -18000), (-273690000, -14400), (-257968800, -18000), (-242240400, -14400),
   (-226519200, -18000), (-210790800, -14400), (-195069600, -18000), (-179341200, -14400),
   (-163620000, -18000), (-147891600, -14400), (-131565600, -18000), (-116442000, -14400),
   (-100116000, -18000), (-84387600, -14400), (-68666400, -18000), (-52938000, -14400), (-37216800, -18000),
   (-21488400, -14400), (-5767200, -18000), (9961200, -14400), (25682400, -18000), (41410800, -14400),
   (57736800, -18000), (73465200, -14400), (89186400, -18000), (104914800, -14400), (120636000, -18000),
   (126687600, -14400), (152085600, -18000), (162370800, -14400), (183535200, -18000), (199263600, -14400),
   (215589600, -18000), (230713200, -14400), (247039200, -18000), (262767600, -14400), (278488800, -18000),
   (294217200, -14400), (309938400, -18000), (325666800, -14400), (341388000, -18000), (357116400, -14400),
   (372837600, -18000), (388566000, -14400), (404892000, -18000), (420015600, -14400), (436341600, -18000),
   (452070000, -14400), (467791200, -18000), (483519600, -14400), (499240800, -18000), (514969200, -14400),
   (530690400, -18000)]

def chicagoHistory : List (Int × Int) :=
  [(-2717647200, -21600), (-1633276800, -18000), (-1615136400, -21600), (-1601827200, -18000),
   (-1583686800, -21600), (-1563724800, -18000), (-1551632400, -21600), (-1538928000, -18000),
   (-1520182800, -21600), (-1504454400, -18000), (-1491757200, -21600), (-1473004800, -18000),
   (-1459702800, -21600), (-1441555200, -18000), (-1428253200, -21600), (-1410105600, -18000),
   (-1396803600, -21600), (-1378656000, -18000), (-1365354000, -21600), (-1347206400, -18000),
   (-1333904400, -21600), (-1315152000, -18000), (-1301850000, -21600), (-1283702400, -18000),
   (-1270400400, -21600), (-1252252800, -18000), (-1238950800, -21600), (-1220803200, -18000),
   (-1207501200, -21600), (-1189353600, -18000), (-1176051600, -21600), (-1157299200, -18000),
   (-1144602000, -21600), (-1125849600, -18000), (-1112547600, -21600), (-1094400000, -18000),
   (-1081098000, -21600), (-1067788800, -18000), (-1045414800, -21600), (-1031500800, -18000),
   (-1018198800, -21600), (-1000051200, -18000), (-986749200, -21600), (-967996800, -18000),
   (-955299600, -21600), (-936547200, -18000), (-923245200, -21600), (-905097600, -18000),
   (-891795600, -21600), (-880214400, -18000), (-765392400, -21600), (-747244800, -18000),
   (-733942800, -21600), (-715795200, -18000), (-702493200, -21600), (-684345600, -18000),
   (-671043600, -21600), (-652896000, -18000), (-639594000, -21600), (-620841600, -18000),
   (-608144400, -21600), (-589392000, -18000), (-576090000, -21600), (-557942400, -18000),
   (-544640400, -21600), (-526492800, -18000), (-513190800, -21600), (-495043200, -18000),
   (-481741200, -21600), (-463593600, -18000), (-447267600, -21600), (-431539200, -18000),
   (-415818000, -21600), (-400089600, -18000), (-384368400, -21600), (-368640000, -18000),
   (-352918800, -21600), (-337190400, -18000), (-321469200, -21600), (-305740800, -18000),
   (-289414800, -21600), (-273686400, -18000), (-257965200, -21600), (-242236800, -18000),
   (-226515600, -21600), (-210787200, -18000), (-195066000, -21600), (-179337600, -18000),
   (-163616400, -21600), (-147888000, -18000), (-131562000, -21600), (-116438400, -18000),
   (-100112400, -21600), (-84384000, -18000), (-68662800, -21600), (-52934400, -18000), (-37213200, -21600),
   (-21484800, -18000), (-5763600, -21600), (9964800, -18000), (25686000, -21600), (41414400, -18000),
   (57740400, -21600), (73468800, -18000), (89190000, -21600), (104918400, -18000), (120639600, -21600),
   (126691200, -18000), (152089200, -21600), (162374400, -18000), (183538800, -21600), (199267200, -18000),
   (215593200, -21600), (230716800, -18000), (247042800, -21600), (262771200, -18000), (278492400, -21600),
   (294220800, -18000), (309942000, -21600), (325670400, -18000), (341391600, -21600), (357120000, -18000),
   (372841200, -21600), (388569600, -18000), (404895600, -21600), (420019200, -18000), (436345200, -21600),
   (452073600, -18000), (467794800, -21600), (483523200, -18000), (499244400, -21600), (514972800, -18000),
   (530694000, -21600)]

def londonHistory : List (Int × Int) :=
  [(-3852662325, 0), (-1691964000, 3600), (-1680472800, 0), (-1664143200, 3600), (-1650146400, 0),
   (-1633903200, 3600), (-1617487200, 0), (-1601848800, 3600), (-1586037600, 0), (-1570399200, 3600),
   (-1552168800, 0), (-1538344800, 3600), (-1522533600, 0), (-1507500000, 3600), (-1490565600, 0),
   (-1473631200, 3600), (-1460930400, 0), (-1442786400, 3600), (-1428876000, 0), (-1410732000, 3600),
   (-1396216800, 0), (-1379282400, 3600), (-1364767200, 0), (-1348437600, 3600), (-1333317600, 0),
   (-1315778400, 3600), (-1301263200, 0), (-1284328800, 3600), (-1269813600, 0), (-1253484000, 3600),
   (-1238364000, 0), (-1221429600, 3600), (-1206914400, 0), (-1189980000, 3600), (-1175464800, 0),
   (-1159135200, 3600), (-1143410400, 0), (-1126476000, 3600), (-1111960800, 0), (-1095631200, 3600),
   (-1080511200, 0), (-1063576800, 3600), (-1049061600, 0), (-1032127200, 3600), (-1017612000, 0),
   (-1001282400, 3600), (-986162400, 0), (-969228000, 3600), (-950479200, 0), (-942012000, 3600),
   (-904518000, 7200), (-896050800, 3600), (-875487600, 7200), (-864601200, 3600), (-844038000, 7200),
   (-832546800, 3600), (-812588400, 7200), (-798073200, 3600), (-781052400, 7200), (-772066800, 3600),
   (-764805600, 0), (-748476000, 3600), (-733356000, 0), (-719445600, 3600), (-717030000, 7200),
   (-706748400, 3600), (-699487200, 0), (-687996000, 3600), (-668037600, 0), (-654732000, 3600),
   (-636588000, 0), (-622072800, 3600), (-605743200, 0), (-590623200, 3600), (-574293600, 0),
   (-558568800, 3600), (-542239200, 0), (-527119200, 3600), (-512604000, 0), (-496274400, 3600),
   (-481154400, 0), (-464220000, 3600), (-449704800, 0), (-432165600, 3600), (-417650400, 0),
   (-401320800, 3600), (-386200800, 0), (-369266400, 3600), (-354751200, 0), (-337816800, 3600),
   (-323301600, 0), (-306972000, 3600), (-291852000, 0), (-276732000, 3600), (-257983200, 0),
   (-245282400, 3600), (-226533600, 0), (-213228000, 3600), (-195084000, 0), (-182383200, 3600),
   (-163634400, 0), (-150933600, 3600), (-132184800, 0), (-119484000, 3600), (-100735200, 0),
   (-88034400, 3600), (-68680800, 0), (-59004000, 3600), (57722400, 0), (69818400, 3600), (89172000, 0),
   (101268000, 3600), (120621600, 0), (132717600, 3600), (152071200, 0), (164167200, 3600), (183520800, 0),
   (196221600, 3600), (214970400, 0), (227671200, 3600), (246420000, 0), (259120800, 3600), (278474400, 0),
   (290570400, 3600), (309924000, 0), (322020000, 3600), (341373600, 0), (354675600, 3600), (372819600, 0),
   (386125200, 3600), (404269200, 0), (417574800, 3600), (435718800, 0), (449024400, 3600), (467773200, 0),
   (481078800, 3600), (499222800, 0), (512528400, 3600), (530672400, 0), (543978000, 3600), (562122000, 0),
   (575427600, 3600), (593571600, 0), (606877200, 3600), (625626000, 0), (638326800, 3600), (657075600, 0),
   (670381200, 3600), (688525200, 0), (701830800, 3600), (719974800, 0), (733280400, 3600), (751424400, 0),
   (764730000, 3600), (782874000, 0), (796179600, 3600), (814323600, 0)]

def lordHoweHistory : List (Int × Int) :=
  [(-2364114980, 36000), (352216800, 37800), (372785400, 41400), (384273000, 37800), (404839800, 41400),
   (415722600, 37800), (436289400, 41400), (447172200, 37800), (467739000, 41400), (478621800, 37800),
   (499188600, 39600), (511282800, 37800), (530033400, 39600), (542732400, 37800), (562087800, 39600),
   (574786800, 37800), (594142200, 39600), (606236400, 37800), (625591800, 39600), (636476400, 37800),
   (657041400, 39600), (667926000, 37800), (688491000, 39600), (699375600, 37800), (719940600, 39600),
   (731430000, 37800), (751995000, 39600), (762879600, 37800), (783444600, 39600), (794329200, 37800),
   (814894200, 39600), (828198000, 37800), (846343800, 39600), (859647600, 37800), (877793400, 39600),
   (891097200, 37800), (909243000, 39600), (922546800, 37800), (941297400, 39600), (953996400, 37800),
   (967303800, 39600), (985446000, 37800), (1004196600, 39600), (1017500400, 37800), (1035646200, 39600),
   (1048950000, 37800), (1067095800, 39600), (1080399600, 37800), (1099150200, 39600), (1111849200, 37800),
   (1130599800, 39600), (1143903600, 37800), (1162049400, 39600), (1174748400, 37800), (1193499000, 39600),
   (1207407600, 37800), (1223134200, 39600)]

def kolkataHistory : List (Int × Int) :=
  [(-3645237208, 21200), (-3155694800, 19270), (-2019705670, 19800), (-891581400, 23400), (-872058600, 19800),
   (-862637400, 23400), (-764145000, 19800)]

def saoPauloHistory : List (Int × Int) :=
  [(-1767214412, -10800), (-1206957600, -7200), (-1191362400, -10800), (-1175374800, -7200),
   (-1159826400, -10800), (-633819600, -7200), (-622069200, -10800), (-602283600, -7200), (-591832800, -10800),
   (-570747600, -7200), (-560210400, -10800), (-539125200, -7200), (-531352800, -10800), (-195426000, -7200),
   (-184197600, -10800), (-155163600, -7200), (-150069600, -10800), (-128898000, -7200), (-121125600, -10800),
   (-99954000, -7200), (-89589600, -10800), (-68418000, -7200), (-57967200, -10800), (499748400, -7200),
   (511236000, -10800), (530593200, -7200), (540266400, -10800), (562129200, -7200), (571197600, -10800),
   (592974000, -7200), (602042400, -10800), (624423600, -7200), (634701600, -10800), (656478000, -7200),
   (666756000, -10800), (687927600, -7200), (697600800, -10800), (719982000, -7200), (728445600, -10800),
   (750826800, -7200), (761709600, -10800), (782276400, -7200), (793159200, -10800), (813726000, -7200),
   (824004000, -10800), (844570800, -7200), (856058400, -10800), (876106800, -7200), (888717600, -10800),
   (908074800, -7200), (919562400, -10800), (938919600, -7200), (951616800, -10800), (970974000, -7200),
   (982461600, -10800), (1003028400, -7200), (1013911200, -10800), (1036292400, -7200), (1045360800, -10800),
   (1066532400, -7200), (1076810400, -10800), (1099364400, -7200), (1108864800, -10800), (1129431600, -7200),
   (1140314400, -10800), (1162695600, -7200), (1172368800, -10800), (1192330800, -7200), (1203213600, -10800),
   (1224385200, -7200), (1234663200, -10800), (1255834800, -7200), (1266717600, -10800), (1287284400, -7200),
   (1298167200, -10800), (1318734000, -7200), (1330221600, -10800), (1350788400, -7200), (1361066400, -10800),
   (1382238000, -7200), (1392516000, -10800), (1413687600, -7200), (1424570400, -10800), (1445137200, -7200),
   (1456020000, -10800), (1476586800, -7200), (1487469600, -10800), (1508036400, -7200), (1518919200, -10800),
   (1541300400, -7200), (1550368800, -10800)]

/-- From 1892 to 2021, and no change since. The day 2011-12-30 was left out. -/
def apiaHistory : List (Int × Int) :=
  [(-2445424384, -41216), (-1861878784, -41400), (-631110600, -39600), (1285498800, -36000),
   (1301752800, -39600), (1316872800, -36000), (1325239200, 50400), (1333202400, 46800), (1348927200, 50400),
   (1365256800, 46800), (1380376800, 50400), (1396706400, 46800), (1411826400, 50400), (1428156000, 46800),
   (1443276000, 50400), (1459605600, 46800), (1474725600, 50400), (1491055200, 46800), (1506175200, 50400),
   (1522504800, 46800), (1538229600, 50400), (1554559200, 46800), (1569679200, 50400), (1586008800, 46800),
   (1601128800, 50400), (1617458400, 46800)]

/-- First Sunday of April to last Sunday of October until 2006, then second Sunday of March to first Sunday of
November, at two o'clock by the clock in force. -/
def americanYears (standard : Int) : List (Int × Int) :=
  let summer := standard + hour
  Season.changes ⟨standard, ⟨4, some 0, 2 * hour - standard⟩, summer, ⟨10, none, 2 * hour - summer⟩⟩ 1987 2006 ++
    Season.changes ⟨standard, ⟨3, some 1, 2 * hour - standard⟩, summer, ⟨11, some 0, 2 * hour - summer⟩⟩ 2007 lastYear

def londonYears : List (Int × Int) := Season.changes ⟨0, ⟨3, none, hour⟩, hour, ⟨10, none, hour⟩⟩ 1996 lastYear

def lordHoweYears : List (Int × Int) :=
  Season.changes ⟨37800, ⟨10, some 0, -30600⟩, 39600, ⟨4, some 0, -32400⟩⟩ 2009 lastYear

def known : List Zone :=
  [⟨"UTC", 0, []⟩,
   ⟨"Asia/Kolkata", 21208, kolkataHistory⟩,
   ⟨"America/New_York", -17762, newYorkHistory ++ americanYears (-5 * hour)⟩,
   ⟨"America/Chicago", -21036, chicagoHistory ++ americanYears (-6 * hour)⟩,
   ⟨"Europe/London", -75, londonHistory ++ londonYears⟩,
   ⟨"Australia/Lord_Howe", 38180, lordHoweHistory ++ lordHoweYears⟩,
   ⟨"America/Sao_Paulo", -11188, saoPauloHistory⟩,
   ⟨"Pacific/Apia", 45184, apiaHistory⟩]

def named? (name : String) : Option Zone := known.find? (·.name = name)

end TransitTimeline.Zone
