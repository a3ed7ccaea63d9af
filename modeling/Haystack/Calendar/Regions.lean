import Haystack.Calendar.History

/-
  This file defines the histories of some regions, up to the
  year 2099. No definition of zones depends on them: they are
  there to run zones with.

  Key definitions include:
    * `History.ofRegion?`
-/

namespace Haystack

namespace History

/- America/New_York. -/
def newYork : History where
  first := -17762
  changes :=
      [ ⟨-2717650800, -18000⟩, ⟨-1633280400, -14400⟩,
        ⟨-1615140000, -18000⟩, ⟨-1601830800, -14400⟩,
        ⟨-1583690400, -18000⟩, ⟨-1570381200, -14400⟩,
        ⟨-1551636000, -18000⟩, ⟨-1536512400, -14400⟩,
        ⟨-1523210400, -18000⟩, ⟨-1504458000, -14400⟩,
        ⟨-1491760800, -18000⟩, ⟨-1473008400, -14400⟩,
        ⟨-1459706400, -18000⟩, ⟨-1441558800, -14400⟩,
        ⟨-1428256800, -18000⟩, ⟨-1410109200, -14400⟩,
        ⟨-1396807200, -18000⟩, ⟨-1378659600, -14400⟩,
        ⟨-1365357600, -18000⟩, ⟨-1347210000, -14400⟩,
        ⟨-1333908000, -18000⟩, ⟨-1315155600, -14400⟩,
        ⟨-1301853600, -18000⟩, ⟨-1283706000, -14400⟩,
        ⟨-1270404000, -18000⟩, ⟨-1252256400, -14400⟩,
        ⟨-1238954400, -18000⟩, ⟨-1220806800, -14400⟩,
        ⟨-1207504800, -18000⟩, ⟨-1189357200, -14400⟩,
        ⟨-1176055200, -18000⟩, ⟨-1157302800, -14400⟩,
        ⟨-1144605600, -18000⟩, ⟨-1125853200, -14400⟩,
        ⟨-1112551200, -18000⟩, ⟨-1094403600, -14400⟩,
        ⟨-1081101600, -18000⟩, ⟨-1062954000, -14400⟩,
        ⟨-1049652000, -18000⟩, ⟨-1031504400, -14400⟩,
        ⟨-1018202400, -18000⟩, ⟨-1000054800, -14400⟩,
        ⟨-986752800, -18000⟩, ⟨-968000400, -14400⟩,
        ⟨-955303200, -18000⟩, ⟨-936550800, -14400⟩,
        ⟨-923248800, -18000⟩, ⟨-905101200, -14400⟩,
        ⟨-891799200, -18000⟩, ⟨-880218000, -14400⟩,
        ⟨-765396000, -18000⟩, ⟨-747248400, -14400⟩,
        ⟨-733946400, -18000⟩, ⟨-715798800, -14400⟩,
        ⟨-702496800, -18000⟩, ⟨-684349200, -14400⟩,
        ⟨-671047200, -18000⟩, ⟨-652899600, -14400⟩,
        ⟨-639597600, -18000⟩, ⟨-620845200, -14400⟩,
        ⟨-608148000, -18000⟩, ⟨-589395600, -14400⟩,
        ⟨-576093600, -18000⟩, ⟨-557946000, -14400⟩,
        ⟨-544644000, -18000⟩, ⟨-526496400, -14400⟩,
        ⟨-513194400, -18000⟩, ⟨-495046800, -14400⟩,
        ⟨-481744800, -18000⟩, ⟨-463597200, -14400⟩,
        ⟨-447271200, -18000⟩, ⟨-431542800, -14400⟩,
        ⟨-415821600, -18000⟩, ⟨-400093200, -14400⟩,
        ⟨-384372000, -18000⟩, ⟨-368643600, -14400⟩,
        ⟨-352922400, -18000⟩, ⟨-337194000, -14400⟩,
        ⟨-321472800, -18000⟩, ⟨-305744400, -14400⟩,
        ⟨-289418400, -18000⟩, ⟨-273690000, -14400⟩,
        ⟨-257968800, -18000⟩, ⟨-242240400, -14400⟩,
        ⟨-226519200, -18000⟩, ⟨-210790800, -14400⟩,
        ⟨-195069600, -18000⟩, ⟨-179341200, -14400⟩,
        ⟨-163620000, -18000⟩, ⟨-147891600, -14400⟩,
        ⟨-131565600, -18000⟩, ⟨-116442000, -14400⟩,
        ⟨-100116000, -18000⟩, ⟨-84387600, -14400⟩,
        ⟨-68666400, -18000⟩, ⟨-52938000, -14400⟩,
        ⟨-37216800, -18000⟩, ⟨-21488400, -14400⟩,
        ⟨-5767200, -18000⟩, ⟨9961200, -14400⟩, ⟨25682400, -18000⟩,
        ⟨41410800, -14400⟩, ⟨57736800, -18000⟩, ⟨73465200, -14400⟩,
        ⟨89186400, -18000⟩, ⟨104914800, -14400⟩,
        ⟨120636000, -18000⟩, ⟨126687600, -14400⟩,
        ⟨152085600, -18000⟩, ⟨162370800, -14400⟩,
        ⟨183535200, -18000⟩, ⟨199263600, -14400⟩,
        ⟨215589600, -18000⟩, ⟨230713200, -14400⟩,
        ⟨247039200, -18000⟩, ⟨262767600, -14400⟩,
        ⟨278488800, -18000⟩, ⟨294217200, -14400⟩,
        ⟨309938400, -18000⟩, ⟨325666800, -14400⟩,
        ⟨341388000, -18000⟩, ⟨357116400, -14400⟩,
        ⟨372837600, -18000⟩, ⟨388566000, -14400⟩,
        ⟨404892000, -18000⟩, ⟨420015600, -14400⟩,
        ⟨436341600, -18000⟩, ⟨452070000, -14400⟩,
        ⟨467791200, -18000⟩, ⟨483519600, -14400⟩,
        ⟨499240800, -18000⟩, ⟨514969200, -14400⟩,
        ⟨530690400, -18000⟩, ⟨544604400, -14400⟩,
        ⟨562140000, -18000⟩, ⟨576054000, -14400⟩,
        ⟨594194400, -18000⟩, ⟨607503600, -14400⟩,
        ⟨625644000, -18000⟩, ⟨638953200, -14400⟩,
        ⟨657093600, -18000⟩, ⟨671007600, -14400⟩,
        ⟨688543200, -18000⟩, ⟨702457200, -14400⟩,
        ⟨719992800, -18000⟩, ⟨733906800, -14400⟩,
        ⟨752047200, -18000⟩, ⟨765356400, -14400⟩,
        ⟨783496800, -18000⟩, ⟨796806000, -14400⟩,
        ⟨814946400, -18000⟩, ⟨828860400, -14400⟩,
        ⟨846396000, -18000⟩, ⟨860310000, -14400⟩,
        ⟨877845600, -18000⟩, ⟨891759600, -14400⟩,
        ⟨909295200, -18000⟩, ⟨923209200, -14400⟩,
        ⟨941349600, -18000⟩, ⟨954658800, -14400⟩,
        ⟨972799200, -18000⟩, ⟨986108400, -14400⟩,
        ⟨1004248800, -18000⟩, ⟨1018162800, -14400⟩,
        ⟨1035698400, -18000⟩, ⟨1049612400, -14400⟩,
        ⟨1067148000, -18000⟩, ⟨1081062000, -14400⟩,
        ⟨1099202400, -18000⟩, ⟨1112511600, -14400⟩,
        ⟨1130652000, -18000⟩, ⟨1143961200, -14400⟩,
        ⟨1162101600, -18000⟩] ++
      recurring 2007 93
        [ ⟨3, 8, 25200, -14400⟩,
          ⟨11, 1, 21600, -18000⟩]
  standard := -18000

/- America/Toronto. -/
def toronto : History where
  first := -19052
  changes :=
      [ ⟨-2366736148, -18000⟩, ⟨-1632070800, -14400⟩,
        ⟨-1615140000, -18000⟩, ⟨-1601753400, -14400⟩,
        ⟨-1583697600, -18000⟩, ⟨-1567357200, -14400⟩,
        ⟨-1554667200, -18000⟩, ⟨-1534698000, -14400⟩,
        ⟨-1524074400, -18000⟩, ⟨-1503248400, -14400⟩,
        ⟨-1492365600, -18000⟩, ⟨-1471798800, -14400⟩,
        ⟨-1460916000, -18000⟩, ⟨-1440954000, -14400⟩,
        ⟨-1428861600, -18000⟩, ⟨-1409504400, -14400⟩,
        ⟨-1397412000, -18000⟩, ⟨-1378054800, -14400⟩,
        ⟨-1365962400, -18000⟩, ⟨-1346605200, -14400⟩,
        ⟨-1333908000, -18000⟩, ⟨-1315155600, -14400⟩,
        ⟨-1301853600, -18000⟩, ⟨-1283706000, -14400⟩,
        ⟨-1270404000, -18000⟩, ⟨-1252256400, -14400⟩,
        ⟨-1238954400, -18000⟩, ⟨-1220806800, -14400⟩,
        ⟨-1207504800, -18000⟩, ⟨-1188752400, -14400⟩,
        ⟨-1176055200, -18000⟩, ⟨-1157302800, -14400⟩,
        ⟨-1144000800, -18000⟩, ⟨-1125853200, -14400⟩,
        ⟨-1112551200, -18000⟩, ⟨-1094403600, -14400⟩,
        ⟨-1081101600, -18000⟩, ⟨-1062954000, -14400⟩,
        ⟨-1049652000, -18000⟩, ⟨-1031504400, -14400⟩,
        ⟨-1018202400, -18000⟩, ⟨-1000054800, -14400⟩,
        ⟨-986752800, -18000⟩, ⟨-968000400, -14400⟩,
        ⟨-955303200, -18000⟩, ⟨-936550800, -14400⟩,
        ⟨-765396000, -18000⟩, ⟨-747248400, -14400⟩,
        ⟨-733946400, -18000⟩, ⟨-715798800, -14400⟩,
        ⟨-702496800, -18000⟩, ⟨-684349200, -14400⟩,
        ⟨-671047200, -18000⟩, ⟨-652899600, -14400⟩,
        ⟨-634154400, -18000⟩, ⟨-620845200, -14400⟩,
        ⟨-602704800, -18000⟩, ⟨-589395600, -14400⟩,
        ⟨-576093600, -18000⟩, ⟨-557946000, -14400⟩,
        ⟨-544644000, -18000⟩, ⟨-526496400, -14400⟩,
        ⟨-513194400, -18000⟩, ⟨-495046800, -14400⟩,
        ⟨-481744800, -18000⟩, ⟨-463597200, -14400⟩,
        ⟨-450295200, -18000⟩, ⟨-431542800, -14400⟩,
        ⟨-418240800, -18000⟩, ⟨-400093200, -14400⟩,
        ⟨-384372000, -18000⟩, ⟨-368643600, -14400⟩,
        ⟨-352922400, -18000⟩, ⟨-337194000, -14400⟩,
        ⟨-321472800, -18000⟩, ⟨-305744400, -14400⟩,
        ⟨-289418400, -18000⟩, ⟨-273690000, -14400⟩,
        ⟨-257968800, -18000⟩, ⟨-242240400, -14400⟩,
        ⟨-226519200, -18000⟩, ⟨-210790800, -14400⟩,
        ⟨-195069600, -18000⟩, ⟨-179341200, -14400⟩,
        ⟨-163620000, -18000⟩, ⟨-147891600, -14400⟩,
        ⟨-131565600, -18000⟩, ⟨-116442000, -14400⟩,
        ⟨-100116000, -18000⟩, ⟨-84387600, -14400⟩,
        ⟨-68666400, -18000⟩, ⟨-52938000, -14400⟩,
        ⟨-37216800, -18000⟩, ⟨-21488400, -14400⟩,
        ⟨-5767200, -18000⟩, ⟨9961200, -14400⟩, ⟨25682400, -18000⟩,
        ⟨41410800, -14400⟩, ⟨57736800, -18000⟩, ⟨73465200, -14400⟩,
        ⟨89186400, -18000⟩, ⟨104914800, -14400⟩,
        ⟨120636000, -18000⟩, ⟨136364400, -14400⟩,
        ⟨152085600, -18000⟩, ⟨167814000, -14400⟩,
        ⟨183535200, -18000⟩, ⟨199263600, -14400⟩,
        ⟨215589600, -18000⟩, ⟨230713200, -14400⟩,
        ⟨247039200, -18000⟩, ⟨262767600, -14400⟩,
        ⟨278488800, -18000⟩, ⟨294217200, -14400⟩,
        ⟨309938400, -18000⟩, ⟨325666800, -14400⟩,
        ⟨341388000, -18000⟩, ⟨357116400, -14400⟩,
        ⟨372837600, -18000⟩, ⟨388566000, -14400⟩,
        ⟨404892000, -18000⟩, ⟨420015600, -14400⟩,
        ⟨436341600, -18000⟩, ⟨452070000, -14400⟩,
        ⟨467791200, -18000⟩, ⟨483519600, -14400⟩,
        ⟨499240800, -18000⟩, ⟨514969200, -14400⟩,
        ⟨530690400, -18000⟩, ⟨544604400, -14400⟩,
        ⟨562140000, -18000⟩, ⟨576054000, -14400⟩,
        ⟨594194400, -18000⟩, ⟨607503600, -14400⟩,
        ⟨625644000, -18000⟩, ⟨638953200, -14400⟩,
        ⟨657093600, -18000⟩, ⟨671007600, -14400⟩,
        ⟨688543200, -18000⟩, ⟨702457200, -14400⟩,
        ⟨719992800, -18000⟩, ⟨733906800, -14400⟩,
        ⟨752047200, -18000⟩, ⟨765356400, -14400⟩,
        ⟨783496800, -18000⟩, ⟨796806000, -14400⟩,
        ⟨814946400, -18000⟩, ⟨828860400, -14400⟩,
        ⟨846396000, -18000⟩, ⟨860310000, -14400⟩,
        ⟨877845600, -18000⟩, ⟨891759600, -14400⟩,
        ⟨909295200, -18000⟩, ⟨923209200, -14400⟩,
        ⟨941349600, -18000⟩, ⟨954658800, -14400⟩,
        ⟨972799200, -18000⟩, ⟨986108400, -14400⟩,
        ⟨1004248800, -18000⟩, ⟨1018162800, -14400⟩,
        ⟨1035698400, -18000⟩, ⟨1049612400, -14400⟩,
        ⟨1067148000, -18000⟩, ⟨1081062000, -14400⟩,
        ⟨1099202400, -18000⟩, ⟨1112511600, -14400⟩,
        ⟨1130652000, -18000⟩, ⟨1143961200, -14400⟩,
        ⟨1162101600, -18000⟩] ++
      recurring 2007 93
        [ ⟨3, 8, 25200, -14400⟩,
          ⟨11, 1, 21600, -18000⟩]
  standard := -18000

/- Europe/London. -/
def london : History where
  first := -75
  changes :=
      [ ⟨-3852662325, 0⟩, ⟨-1691964000, 3600⟩, ⟨-1680472800, 0⟩,
        ⟨-1664143200, 3600⟩, ⟨-1650146400, 0⟩, ⟨-1633903200, 3600⟩,
        ⟨-1617487200, 0⟩, ⟨-1601848800, 3600⟩, ⟨-1586037600, 0⟩,
        ⟨-1570399200, 3600⟩, ⟨-1552168800, 0⟩, ⟨-1538344800, 3600⟩,
        ⟨-1522533600, 0⟩, ⟨-1507500000, 3600⟩, ⟨-1490565600, 0⟩,
        ⟨-1473631200, 3600⟩, ⟨-1460930400, 0⟩, ⟨-1442786400, 3600⟩,
        ⟨-1428876000, 0⟩, ⟨-1410732000, 3600⟩, ⟨-1396216800, 0⟩,
        ⟨-1379282400, 3600⟩, ⟨-1364767200, 0⟩, ⟨-1348437600, 3600⟩,
        ⟨-1333317600, 0⟩, ⟨-1315778400, 3600⟩, ⟨-1301263200, 0⟩,
        ⟨-1284328800, 3600⟩, ⟨-1269813600, 0⟩, ⟨-1253484000, 3600⟩,
        ⟨-1238364000, 0⟩, ⟨-1221429600, 3600⟩, ⟨-1206914400, 0⟩,
        ⟨-1189980000, 3600⟩, ⟨-1175464800, 0⟩, ⟨-1159135200, 3600⟩,
        ⟨-1143410400, 0⟩, ⟨-1126476000, 3600⟩, ⟨-1111960800, 0⟩,
        ⟨-1095631200, 3600⟩, ⟨-1080511200, 0⟩, ⟨-1063576800, 3600⟩,
        ⟨-1049061600, 0⟩, ⟨-1032127200, 3600⟩, ⟨-1017612000, 0⟩,
        ⟨-1001282400, 3600⟩, ⟨-986162400, 0⟩, ⟨-969228000, 3600⟩,
        ⟨-950479200, 0⟩, ⟨-942012000, 3600⟩, ⟨-904518000, 7200⟩,
        ⟨-896050800, 3600⟩, ⟨-875487600, 7200⟩, ⟨-864601200, 3600⟩,
        ⟨-844038000, 7200⟩, ⟨-832546800, 3600⟩, ⟨-812588400, 7200⟩,
        ⟨-798073200, 3600⟩, ⟨-781052400, 7200⟩, ⟨-772066800, 3600⟩,
        ⟨-764805600, 0⟩, ⟨-748476000, 3600⟩, ⟨-733356000, 0⟩,
        ⟨-719445600, 3600⟩, ⟨-717030000, 7200⟩, ⟨-706748400, 3600⟩,
        ⟨-699487200, 0⟩, ⟨-687996000, 3600⟩, ⟨-668037600, 0⟩,
        ⟨-654732000, 3600⟩, ⟨-636588000, 0⟩, ⟨-622072800, 3600⟩,
        ⟨-605743200, 0⟩, ⟨-590623200, 3600⟩, ⟨-574293600, 0⟩,
        ⟨-558568800, 3600⟩, ⟨-542239200, 0⟩, ⟨-527119200, 3600⟩,
        ⟨-512604000, 0⟩, ⟨-496274400, 3600⟩, ⟨-481154400, 0⟩,
        ⟨-464220000, 3600⟩, ⟨-449704800, 0⟩, ⟨-432165600, 3600⟩,
        ⟨-417650400, 0⟩, ⟨-401320800, 3600⟩, ⟨-386200800, 0⟩,
        ⟨-369266400, 3600⟩, ⟨-354751200, 0⟩, ⟨-337816800, 3600⟩,
        ⟨-323301600, 0⟩, ⟨-306972000, 3600⟩, ⟨-291852000, 0⟩,
        ⟨-276732000, 3600⟩, ⟨-257983200, 0⟩, ⟨-245282400, 3600⟩,
        ⟨-226533600, 0⟩, ⟨-213228000, 3600⟩, ⟨-195084000, 0⟩,
        ⟨-182383200, 3600⟩, ⟨-163634400, 0⟩, ⟨-150933600, 3600⟩,
        ⟨-132184800, 0⟩, ⟨-119484000, 3600⟩, ⟨-100735200, 0⟩,
        ⟨-88034400, 3600⟩, ⟨-68680800, 0⟩, ⟨-59004000, 3600⟩,
        ⟨57722400, 0⟩, ⟨69818400, 3600⟩, ⟨89172000, 0⟩,
        ⟨101268000, 3600⟩, ⟨120621600, 0⟩, ⟨132717600, 3600⟩,
        ⟨152071200, 0⟩, ⟨164167200, 3600⟩, ⟨183520800, 0⟩,
        ⟨196221600, 3600⟩, ⟨214970400, 0⟩, ⟨227671200, 3600⟩,
        ⟨246420000, 0⟩, ⟨259120800, 3600⟩, ⟨278474400, 0⟩,
        ⟨290570400, 3600⟩, ⟨309924000, 0⟩, ⟨322020000, 3600⟩,
        ⟨341373600, 0⟩, ⟨354675600, 3600⟩, ⟨372819600, 0⟩,
        ⟨386125200, 3600⟩, ⟨404269200, 0⟩, ⟨417574800, 3600⟩,
        ⟨435718800, 0⟩, ⟨449024400, 3600⟩, ⟨467773200, 0⟩,
        ⟨481078800, 3600⟩, ⟨499222800, 0⟩, ⟨512528400, 3600⟩,
        ⟨530672400, 0⟩, ⟨543978000, 3600⟩, ⟨562122000, 0⟩,
        ⟨575427600, 3600⟩, ⟨593571600, 0⟩, ⟨606877200, 3600⟩,
        ⟨625626000, 0⟩, ⟨638326800, 3600⟩, ⟨657075600, 0⟩,
        ⟨670381200, 3600⟩, ⟨688525200, 0⟩, ⟨701830800, 3600⟩,
        ⟨719974800, 0⟩, ⟨733280400, 3600⟩, ⟨751424400, 0⟩,
        ⟨764730000, 3600⟩, ⟨782874000, 0⟩, ⟨796179600, 3600⟩,
        ⟨814323600, 0⟩] ++
      recurring 1996 104
        [ ⟨3, 25, 3600, 3600⟩,
          ⟨10, 25, 3600, 0⟩]
  standard := 0

/- Europe/Dublin. -/
def dublin : History where
  first := -1521
  changes :=
      [ ⟨-1691962479, 2079⟩, ⟨-1680471279, 0⟩, ⟨-1664143200, 3600⟩,
        ⟨-1650146400, 0⟩, ⟨-1633903200, 3600⟩, ⟨-1617487200, 0⟩,
        ⟨-1601848800, 3600⟩, ⟨-1586037600, 0⟩, ⟨-1570399200, 3600⟩,
        ⟨-1552168800, 0⟩, ⟨-1538344800, 3600⟩, ⟨-1522533600, 0⟩,
        ⟨-1507500000, 3600⟩, ⟨-1490565600, 0⟩, ⟨-1473631200, 3600⟩,
        ⟨-1460930400, 0⟩, ⟨-1442786400, 3600⟩, ⟨-1428876000, 0⟩,
        ⟨-1410732000, 3600⟩, ⟨-1396216800, 0⟩, ⟨-1379282400, 3600⟩,
        ⟨-1364767200, 0⟩, ⟨-1348437600, 3600⟩, ⟨-1333317600, 0⟩,
        ⟨-1315778400, 3600⟩, ⟨-1301263200, 0⟩, ⟨-1284328800, 3600⟩,
        ⟨-1269813600, 0⟩, ⟨-1253484000, 3600⟩, ⟨-1238364000, 0⟩,
        ⟨-1221429600, 3600⟩, ⟨-1206914400, 0⟩, ⟨-1189980000, 3600⟩,
        ⟨-1175464800, 0⟩, ⟨-1159135200, 3600⟩, ⟨-1143410400, 0⟩,
        ⟨-1126476000, 3600⟩, ⟨-1111960800, 0⟩, ⟨-1095631200, 3600⟩,
        ⟨-1080511200, 0⟩, ⟨-1063576800, 3600⟩, ⟨-1049061600, 0⟩,
        ⟨-1032127200, 3600⟩, ⟨-1017612000, 0⟩, ⟨-1001282400, 3600⟩,
        ⟨-986162400, 0⟩, ⟨-969228000, 3600⟩, ⟨-950479200, 0⟩,
        ⟨-942012000, 3600⟩, ⟨-733356000, 0⟩, ⟨-719445600, 3600⟩,
        ⟨-699487200, 0⟩, ⟨-684972000, 3600⟩, ⟨-668037600, 0⟩,
        ⟨-654732000, 3600⟩, ⟨-636588000, 0⟩, ⟨-622072800, 3600⟩,
        ⟨-605743200, 0⟩, ⟨-590623200, 3600⟩, ⟨-574293600, 0⟩,
        ⟨-558568800, 3600⟩, ⟨-542239200, 0⟩, ⟨-527119200, 3600⟩,
        ⟨-512604000, 0⟩, ⟨-496274400, 3600⟩, ⟨-481154400, 0⟩,
        ⟨-464220000, 3600⟩, ⟨-449704800, 0⟩, ⟨-432165600, 3600⟩,
        ⟨-417650400, 0⟩, ⟨-401320800, 3600⟩, ⟨-386200800, 0⟩,
        ⟨-369266400, 3600⟩, ⟨-354751200, 0⟩, ⟨-337816800, 3600⟩,
        ⟨-323301600, 0⟩, ⟨-306972000, 3600⟩, ⟨-291852000, 0⟩,
        ⟨-276732000, 3600⟩, ⟨-257983200, 0⟩, ⟨-245282400, 3600⟩,
        ⟨-226533600, 0⟩, ⟨-213228000, 3600⟩, ⟨-195084000, 0⟩,
        ⟨-182383200, 3600⟩, ⟨-163634400, 0⟩, ⟨-150933600, 3600⟩,
        ⟨-132184800, 0⟩, ⟨-119484000, 3600⟩, ⟨-100735200, 0⟩,
        ⟨-88034400, 3600⟩, ⟨-68680800, 0⟩, ⟨-59004000, 3600⟩,
        ⟨57722400, 0⟩, ⟨69818400, 3600⟩, ⟨89172000, 0⟩,
        ⟨101268000, 3600⟩, ⟨120621600, 0⟩, ⟨132717600, 3600⟩,
        ⟨152071200, 0⟩, ⟨164167200, 3600⟩, ⟨183520800, 0⟩,
        ⟨196221600, 3600⟩, ⟨214970400, 0⟩, ⟨227671200, 3600⟩,
        ⟨246420000, 0⟩, ⟨259120800, 3600⟩, ⟨278474400, 0⟩,
        ⟨290570400, 3600⟩, ⟨309924000, 0⟩, ⟨322020000, 3600⟩,
        ⟨341373600, 0⟩, ⟨354675600, 3600⟩, ⟨372819600, 0⟩,
        ⟨386125200, 3600⟩, ⟨404269200, 0⟩, ⟨417574800, 3600⟩,
        ⟨435718800, 0⟩, ⟨449024400, 3600⟩, ⟨467773200, 0⟩,
        ⟨481078800, 3600⟩, ⟨499222800, 0⟩, ⟨512528400, 3600⟩,
        ⟨530672400, 0⟩, ⟨543978000, 3600⟩, ⟨562122000, 0⟩,
        ⟨575427600, 3600⟩, ⟨593571600, 0⟩, ⟨606877200, 3600⟩,
        ⟨625626000, 0⟩, ⟨638326800, 3600⟩, ⟨657075600, 0⟩,
        ⟨670381200, 3600⟩, ⟨688525200, 0⟩, ⟨701830800, 3600⟩,
        ⟨719974800, 0⟩, ⟨733280400, 3600⟩, ⟨751424400, 0⟩,
        ⟨764730000, 3600⟩, ⟨782874000, 0⟩, ⟨796179600, 3600⟩,
        ⟨814323600, 0⟩] ++
      recurring 1996 104
        [ ⟨3, 25, 3600, 3600⟩,
          ⟨10, 25, 3600, 0⟩]
  standard := 3600

/- Australia/Sydney. -/
def sydney : History where
  first := 36292
  changes :=
      [ ⟨-2364113092, 36000⟩, ⟨-1672560000, 39600⟩,
        ⟨-1665388800, 36000⟩, ⟨-883641600, 39600⟩,
        ⟨-876124800, 36000⟩, ⟨-860400000, 39600⟩,
        ⟨-844675200, 36000⟩, ⟨-828345600, 39600⟩,
        ⟨-813225600, 36000⟩, ⟨57686400, 39600⟩, ⟨67968000, 36000⟩,
        ⟨89136000, 39600⟩, ⟨100022400, 36000⟩, ⟨120585600, 39600⟩,
        ⟨131472000, 36000⟩, ⟨152035200, 39600⟩, ⟨162921600, 36000⟩,
        ⟨183484800, 39600⟩, ⟨194976000, 36000⟩, ⟨215539200, 39600⟩,
        ⟨226425600, 36000⟩, ⟨246988800, 39600⟩, ⟨257875200, 36000⟩,
        ⟨278438400, 39600⟩, ⟨289324800, 36000⟩, ⟨309888000, 39600⟩,
        ⟨320774400, 36000⟩, ⟨341337600, 39600⟩, ⟨352224000, 36000⟩,
        ⟨372787200, 39600⟩, ⟨386697600, 36000⟩, ⟨404841600, 39600⟩,
        ⟨415728000, 36000⟩, ⟨436291200, 39600⟩, ⟨447177600, 36000⟩,
        ⟨467740800, 39600⟩, ⟨478627200, 36000⟩, ⟨499190400, 39600⟩,
        ⟨511286400, 36000⟩, ⟨530035200, 39600⟩, ⟨542736000, 36000⟩,
        ⟨562089600, 39600⟩, ⟨574790400, 36000⟩, ⟨594144000, 39600⟩,
        ⟨606240000, 36000⟩, ⟨625593600, 39600⟩, ⟨636480000, 36000⟩,
        ⟨657043200, 39600⟩, ⟨667929600, 36000⟩, ⟨688492800, 39600⟩,
        ⟨699379200, 36000⟩, ⟨719942400, 39600⟩, ⟨731433600, 36000⟩,
        ⟨751996800, 39600⟩, ⟨762883200, 36000⟩, ⟨783446400, 39600⟩,
        ⟨794332800, 36000⟩, ⟨814896000, 39600⟩, ⟨828201600, 36000⟩,
        ⟨846345600, 39600⟩, ⟨859651200, 36000⟩, ⟨877795200, 39600⟩,
        ⟨891100800, 36000⟩, ⟨909244800, 39600⟩, ⟨922550400, 36000⟩,
        ⟨941299200, 39600⟩, ⟨954000000, 36000⟩, ⟨967305600, 39600⟩,
        ⟨985449600, 36000⟩, ⟨1004198400, 39600⟩,
        ⟨1017504000, 36000⟩, ⟨1035648000, 39600⟩,
        ⟨1048953600, 36000⟩, ⟨1067097600, 39600⟩,
        ⟨1080403200, 36000⟩, ⟨1099152000, 39600⟩,
        ⟨1111852800, 36000⟩, ⟨1130601600, 39600⟩,
        ⟨1143907200, 36000⟩, ⟨1162051200, 39600⟩,
        ⟨1174752000, 36000⟩, ⟨1193500800, 39600⟩] ++
      recurring 2008 92
        [ ⟨4, 1, -28800, 36000⟩,
          ⟨10, 1, -28800, 39600⟩]
  standard := 36000

/- Australia/Lord_Howe. -/
def lordHowe : History where
  first := 38180
  changes :=
      [ ⟨-2364114980, 36000⟩, ⟨352216800, 37800⟩,
        ⟨372785400, 41400⟩, ⟨384273000, 37800⟩, ⟨404839800, 41400⟩,
        ⟨415722600, 37800⟩, ⟨436289400, 41400⟩, ⟨447172200, 37800⟩,
        ⟨467739000, 41400⟩, ⟨478621800, 37800⟩, ⟨499188600, 39600⟩,
        ⟨511282800, 37800⟩, ⟨530033400, 39600⟩, ⟨542732400, 37800⟩,
        ⟨562087800, 39600⟩, ⟨574786800, 37800⟩, ⟨594142200, 39600⟩,
        ⟨606236400, 37800⟩, ⟨625591800, 39600⟩, ⟨636476400, 37800⟩,
        ⟨657041400, 39600⟩, ⟨667926000, 37800⟩, ⟨688491000, 39600⟩,
        ⟨699375600, 37800⟩, ⟨719940600, 39600⟩, ⟨731430000, 37800⟩,
        ⟨751995000, 39600⟩, ⟨762879600, 37800⟩, ⟨783444600, 39600⟩,
        ⟨794329200, 37800⟩, ⟨814894200, 39600⟩, ⟨828198000, 37800⟩,
        ⟨846343800, 39600⟩, ⟨859647600, 37800⟩, ⟨877793400, 39600⟩,
        ⟨891097200, 37800⟩, ⟨909243000, 39600⟩, ⟨922546800, 37800⟩,
        ⟨941297400, 39600⟩, ⟨953996400, 37800⟩, ⟨967303800, 39600⟩,
        ⟨985446000, 37800⟩, ⟨1004196600, 39600⟩,
        ⟨1017500400, 37800⟩, ⟨1035646200, 39600⟩,
        ⟨1048950000, 37800⟩, ⟨1067095800, 39600⟩,
        ⟨1080399600, 37800⟩, ⟨1099150200, 39600⟩,
        ⟨1111849200, 37800⟩, ⟨1130599800, 39600⟩,
        ⟨1143903600, 37800⟩, ⟨1162049400, 39600⟩,
        ⟨1174748400, 37800⟩, ⟨1193499000, 39600⟩] ++
      recurring 2008 92
        [ ⟨4, 1, -32400, 37800⟩,
          ⟨10, 1, -30600, 39600⟩]
  standard := 37800

/- Pacific/Apia. -/
def apia : History where
  first := 45184
  changes :=
      [ ⟨-2445424384, -41216⟩, ⟨-1861878784, -41400⟩,
        ⟨-631110600, -39600⟩, ⟨1285498800, -36000⟩,
        ⟨1301752800, -39600⟩, ⟨1316872800, -36000⟩,
        ⟨1325239200, 50400⟩, ⟨1333202400, 46800⟩,
        ⟨1348927200, 50400⟩, ⟨1365256800, 46800⟩,
        ⟨1380376800, 50400⟩, ⟨1396706400, 46800⟩,
        ⟨1411826400, 50400⟩, ⟨1428156000, 46800⟩,
        ⟨1443276000, 50400⟩, ⟨1459605600, 46800⟩,
        ⟨1474725600, 50400⟩, ⟨1491055200, 46800⟩,
        ⟨1506175200, 50400⟩, ⟨1522504800, 46800⟩,
        ⟨1538229600, 50400⟩, ⟨1554559200, 46800⟩,
        ⟨1569679200, 50400⟩, ⟨1586008800, 46800⟩,
        ⟨1601128800, 50400⟩, ⟨1617458400, 46800⟩]
  standard := 46800

/- Africa/Monrovia. -/
def monrovia : History where
  first := -2588
  changes :=
      [ ⟨-1604359012, -2670⟩, ⟨63593070, 0⟩]
  standard := 0

/- America/Sao_Paulo. -/
def saoPaulo : History where
  first := -11188
  changes :=
      [ ⟨-1767214412, -10800⟩, ⟨-1206957600, -7200⟩,
        ⟨-1191362400, -10800⟩, ⟨-1175374800, -7200⟩,
        ⟨-1159826400, -10800⟩, ⟨-633819600, -7200⟩,
        ⟨-622069200, -10800⟩, ⟨-602283600, -7200⟩,
        ⟨-591832800, -10800⟩, ⟨-570747600, -7200⟩,
        ⟨-560210400, -10800⟩, ⟨-539125200, -7200⟩,
        ⟨-531352800, -10800⟩, ⟨-195426000, -7200⟩,
        ⟨-184197600, -10800⟩, ⟨-155163600, -7200⟩,
        ⟨-150069600, -10800⟩, ⟨-128898000, -7200⟩,
        ⟨-121125600, -10800⟩, ⟨-99954000, -7200⟩,
        ⟨-89589600, -10800⟩, ⟨-68418000, -7200⟩,
        ⟨-57967200, -10800⟩, ⟨499748400, -7200⟩,
        ⟨511236000, -10800⟩, ⟨530593200, -7200⟩,
        ⟨540266400, -10800⟩, ⟨562129200, -7200⟩,
        ⟨571197600, -10800⟩, ⟨592974000, -7200⟩,
        ⟨602042400, -10800⟩, ⟨624423600, -7200⟩,
        ⟨634701600, -10800⟩, ⟨656478000, -7200⟩,
        ⟨666756000, -10800⟩, ⟨687927600, -7200⟩,
        ⟨697600800, -10800⟩, ⟨719982000, -7200⟩,
        ⟨728445600, -10800⟩, ⟨750826800, -7200⟩,
        ⟨761709600, -10800⟩, ⟨782276400, -7200⟩,
        ⟨793159200, -10800⟩, ⟨813726000, -7200⟩,
        ⟨824004000, -10800⟩, ⟨844570800, -7200⟩,
        ⟨856058400, -10800⟩, ⟨876106800, -7200⟩,
        ⟨888717600, -10800⟩, ⟨908074800, -7200⟩,
        ⟨919562400, -10800⟩, ⟨938919600, -7200⟩,
        ⟨951616800, -10800⟩, ⟨970974000, -7200⟩,
        ⟨982461600, -10800⟩, ⟨1003028400, -7200⟩,
        ⟨1013911200, -10800⟩, ⟨1036292400, -7200⟩,
        ⟨1045360800, -10800⟩, ⟨1066532400, -7200⟩,
        ⟨1076810400, -10800⟩, ⟨1099364400, -7200⟩,
        ⟨1108864800, -10800⟩, ⟨1129431600, -7200⟩,
        ⟨1140314400, -10800⟩, ⟨1162695600, -7200⟩,
        ⟨1172368800, -10800⟩, ⟨1192330800, -7200⟩,
        ⟨1203213600, -10800⟩, ⟨1224385200, -7200⟩,
        ⟨1234663200, -10800⟩, ⟨1255834800, -7200⟩,
        ⟨1266717600, -10800⟩, ⟨1287284400, -7200⟩,
        ⟨1298167200, -10800⟩, ⟨1318734000, -7200⟩,
        ⟨1330221600, -10800⟩, ⟨1350788400, -7200⟩,
        ⟨1361066400, -10800⟩, ⟨1382238000, -7200⟩,
        ⟨1392516000, -10800⟩, ⟨1413687600, -7200⟩,
        ⟨1424570400, -10800⟩, ⟨1445137200, -7200⟩,
        ⟨1456020000, -10800⟩, ⟨1476586800, -7200⟩,
        ⟨1487469600, -10800⟩, ⟨1508036400, -7200⟩,
        ⟨1518919200, -10800⟩, ⟨1541300400, -7200⟩,
        ⟨1550368800, -10800⟩]
  standard := -10800

/- America/Buenos_Aires. -/
def buenosAires : History where
  first := -14028
  changes :=
      [ ⟨-2372097972, -15408⟩, ⟨-1567453392, -14400⟩,
        ⟨-1233432000, -10800⟩, ⟨-1222981200, -14400⟩,
        ⟨-1205956800, -10800⟩, ⟨-1194037200, -14400⟩,
        ⟨-1172865600, -10800⟩, ⟨-1162501200, -14400⟩,
        ⟨-1141329600, -10800⟩, ⟨-1130965200, -14400⟩,
        ⟨-1109793600, -10800⟩, ⟨-1099429200, -14400⟩,
        ⟨-1078257600, -10800⟩, ⟨-1067806800, -14400⟩,
        ⟨-1046635200, -10800⟩, ⟨-1036270800, -14400⟩,
        ⟨-1015099200, -10800⟩, ⟨-1004734800, -14400⟩,
        ⟨-983563200, -10800⟩, ⟨-973198800, -14400⟩,
        ⟨-952027200, -10800⟩, ⟨-941576400, -14400⟩,
        ⟨-931032000, -10800⟩, ⟨-900882000, -14400⟩,
        ⟨-890337600, -10800⟩, ⟨-833749200, -14400⟩,
        ⟨-827265600, -10800⟩, ⟨-752274000, -14400⟩,
        ⟨-733780800, -10800⟩, ⟨-197326800, -14400⟩,
        ⟨-190843200, -10800⟩, ⟨-184194000, -14400⟩,
        ⟨-164491200, -10800⟩, ⟨-152658000, -14400⟩,
        ⟨-132955200, -10800⟩, ⟨-121122000, -14400⟩,
        ⟨-101419200, -10800⟩, ⟨-86821200, -14400⟩,
        ⟨-71092800, -10800⟩, ⟨-54766800, -14400⟩,
        ⟨-39038400, -10800⟩, ⟨-23317200, -14400⟩,
        ⟨-7588800, -10800⟩, ⟨128142000, -7200⟩, ⟨136605600, -10800⟩,
        ⟨596948400, -7200⟩, ⟨605066400, -10800⟩, ⟨624423600, -7200⟩,
        ⟨636516000, -10800⟩, ⟨656478000, -7200⟩,
        ⟨667965600, -10800⟩, ⟨687927600, -7200⟩,
        ⟨699415200, -10800⟩, ⟨719377200, -7200⟩,
        ⟨731469600, -10800⟩, ⟨1198983600, -7200⟩,
        ⟨1205632800, -10800⟩, ⟨1224385200, -7200⟩,
        ⟨1237082400, -10800⟩]
  standard := -10800

/- Asia/Kolkata. -/
def kolkata : History where
  first := 21208
  changes :=
      [ ⟨-3645237208, 21200⟩, ⟨-3155694800, 19270⟩,
        ⟨-2019705670, 19800⟩, ⟨-891581400, 23400⟩,
        ⟨-872058600, 19800⟩, ⟨-862637400, 23400⟩,
        ⟨-764145000, 19800⟩]
  standard := 19800

/- Asia/Kathmandu. -/
def kathmandu : History where
  first := 20476
  changes :=
      [ ⟨-1577943676, 19800⟩, ⟨504901800, 20700⟩]
  standard := 20700

/- Asia/Tokyo. -/
def tokyo : History where
  first := 33539
  changes :=
      [ ⟨-2587712400, 32400⟩, ⟨-683802000, 36000⟩,
        ⟨-672310800, 32400⟩, ⟨-654771600, 36000⟩,
        ⟨-640861200, 32400⟩, ⟨-620298000, 36000⟩,
        ⟨-609411600, 32400⟩, ⟨-588848400, 36000⟩,
        ⟨-577962000, 32400⟩]
  standard := 32400

/- Africa/Johannesburg. -/
def johannesburg : History where
  first := 6720
  changes :=
      [ ⟨-2458173120, 5400⟩, ⟨-2109288600, 7200⟩,
        ⟨-860976000, 10800⟩, ⟨-845254800, 7200⟩,
        ⟨-829526400, 10800⟩, ⟨-813805200, 7200⟩]
  standard := 7200

/-
  The regions with a constant offset of whole hours. Their
  names count the hours to the west.
-/
def hoursWest :
    List (String × Int) :=
  [ ("Etc/GMT+1", 1), ("Etc/GMT+2", 2), ("Etc/GMT+3", 3),
    ("Etc/GMT+4", 4), ("Etc/GMT+5", 5), ("Etc/GMT+6", 6),
    ("Etc/GMT+7", 7), ("Etc/GMT+8", 8), ("Etc/GMT+9", 9),
    ("Etc/GMT+10", 10), ("Etc/GMT+11", 11), ("Etc/GMT+12", 12),
    ("Etc/GMT-1", -1), ("Etc/GMT-2", -2), ("Etc/GMT-3", -3),
    ("Etc/GMT-4", -4), ("Etc/GMT-5", -5), ("Etc/GMT-6", -6),
    ("Etc/GMT-7", -7), ("Etc/GMT-8", -8), ("Etc/GMT-9", -9),
    ("Etc/GMT-10", -10), ("Etc/GMT-11", -11), ("Etc/GMT-12", -12),
    ("Etc/GMT-13", -13), ("Etc/GMT-14", -14), ("Etc/GMT", 0),
    ("Etc/GMT0", 0), ("Etc/GMT+0", 0), ("Etc/GMT-0", 0),
    ("Etc/Greenwich", 0), ("Etc/UCT", 0), ("Etc/UTC", 0),
    ("Etc/Universal", 0), ("Etc/Zulu", 0)]

/- The regions whose offset has changed, some by two names. -/
def changingRegions :
    List (String × History) :=
  [ ("America/New_York", newYork),
    ("America/Toronto", toronto),
    ("America/Montreal", toronto),
    ("America/Nassau", toronto),
    ("America/Nipigon", toronto),
    ("America/Thunder_Bay", toronto),
    ("Europe/London", london),
    ("Europe/Belfast", london),
    ("Europe/Guernsey", london),
    ("Europe/Isle_of_Man", london),
    ("Europe/Jersey", london),
    ("Europe/Dublin", dublin),
    ("Australia/Sydney", sydney),
    ("Australia/ACT", sydney),
    ("Australia/Canberra", sydney),
    ("Australia/NSW", sydney),
    ("Australia/Lord_Howe", lordHowe),
    ("Australia/LHI", lordHowe),
    ("Pacific/Apia", apia),
    ("Africa/Monrovia", monrovia),
    ("America/Sao_Paulo", saoPaulo),
    ("America/Buenos_Aires", buenosAires),
    ("America/Argentina/Buenos_Aires", buenosAires),
    ("Asia/Kolkata", kolkata),
    ("Asia/Calcutta", kolkata),
    ("Asia/Kathmandu", kathmandu),
    ("Asia/Katmandu", kathmandu),
    ("Asia/Tokyo", tokyo),
    ("Africa/Johannesburg", johannesburg),
    ("Africa/Maseru", johannesburg),
    ("Africa/Mbabane", johannesburg)]

/- The history of a region, if it is one of these. -/
def ofRegion? (id : String) : Option History :=
  match changingRegions.lookup id with
  | some history => some history
  | none =>
      (hoursWest.lookup id).map
        (fun hours => constant (-3600 * hours))

end History

end Haystack
