/-
  This file defines the ids of the regions that zones are
  known for. A zone is named by the last part of its id, and
  the names are all different.

  Key definitions include:
    * `regionIds`
    * `regionName`
-/

namespace Haystack

/- The ids, in the order of their names. -/
def regionIds :
    List String :=
  [ "Australia/ACT", "Africa/Abidjan", "Africa/Accra",
    "America/Adak", "Africa/Addis_Ababa", "Australia/Adelaide",
    "Asia/Aden", "Africa/Algiers", "Asia/Almaty", "Asia/Amman",
    "Europe/Amsterdam", "Asia/Anadyr", "America/Anchorage",
    "Europe/Andorra", "America/Anguilla", "Indian/Antananarivo",
    "America/Antigua", "Pacific/Apia", "Asia/Aqtau", "Asia/Aqtobe",
    "America/Araguaina", "America/Aruba", "Asia/Ashgabat",
    "Asia/Ashkhabad", "Africa/Asmara", "Africa/Asmera",
    "Europe/Astrakhan", "America/Asuncion", "Europe/Athens",
    "America/Atikokan", "America/Atka", "Asia/Atyrau",
    "Pacific/Auckland", "Atlantic/Azores", "Asia/Baghdad",
    "America/Bahia", "America/Bahia_Banderas", "Asia/Bahrain",
    "Asia/Baku", "Africa/Bamako", "Asia/Bangkok", "Africa/Bangui",
    "Africa/Banjul", "America/Barbados", "Asia/Barnaul",
    "Asia/Beirut", "America/Belem", "Europe/Belfast",
    "Europe/Belgrade", "America/Belize", "Europe/Berlin",
    "Atlantic/Bermuda", "America/North_Dakota/Beulah",
    "Asia/Bishkek", "Africa/Bissau", "America/Blanc-Sablon",
    "Africa/Blantyre", "America/Boa_Vista", "America/Bogota",
    "America/Boise", "Pacific/Bougainville", "Europe/Bratislava",
    "Africa/Brazzaville", "Australia/Brisbane",
    "Australia/Broken_Hill", "Asia/Brunei", "Europe/Brussels",
    "Europe/Bucharest", "Europe/Budapest", "America/Buenos_Aires",
    "Africa/Bujumbura", "Europe/Busingen", "Africa/Cairo",
    "Asia/Calcutta", "America/Cambridge_Bay",
    "America/Campo_Grande", "Atlantic/Canary", "Australia/Canberra",
    "America/Cancun", "Atlantic/Cape_Verde", "America/Caracas",
    "Africa/Casablanca", "Antarctica/Casey", "America/Catamarca",
    "America/Cayenne", "America/Cayman",
    "America/North_Dakota/Center", "Africa/Ceuta", "Indian/Chagos",
    "Pacific/Chatham", "America/Chicago", "America/Chihuahua",
    "Europe/Chisinau", "Asia/Chita", "Asia/Choibalsan",
    "Asia/Chongqing", "Indian/Christmas", "Asia/Chungking",
    "Pacific/Chuuk", "America/Ciudad_Juarez", "Indian/Cocos",
    "Asia/Colombo", "America/Argentina/ComodRivadavia",
    "Indian/Comoro", "Africa/Conakry", "Europe/Copenhagen",
    "America/Coral_Harbour", "America/Cordoba",
    "America/Costa_Rica", "America/Coyhaique", "America/Creston",
    "America/Cuiaba", "America/Curacao", "Australia/Currie",
    "Asia/Dacca", "Africa/Dakar", "Asia/Damascus",
    "America/Danmarkshavn", "Africa/Dar_es_Salaam",
    "Australia/Darwin", "Antarctica/Davis", "America/Dawson",
    "America/Dawson_Creek", "America/Denver", "America/Detroit",
    "Asia/Dhaka", "Asia/Dili", "Africa/Djibouti",
    "America/Dominica", "Africa/Douala", "Asia/Dubai",
    "Europe/Dublin", "Antarctica/DumontDUrville", "Asia/Dushanbe",
    "Pacific/Easter", "America/Edmonton", "Pacific/Efate",
    "America/Eirunepe", "Africa/El_Aaiun", "America/El_Salvador",
    "Pacific/Enderbury", "America/Ensenada", "Australia/Eucla",
    "Atlantic/Faeroe", "Pacific/Fakaofo", "Asia/Famagusta",
    "Atlantic/Faroe", "Pacific/Fiji", "America/Fort_Nelson",
    "America/Fort_Wayne", "America/Fortaleza", "Africa/Freetown",
    "Pacific/Funafuti", "Etc/GMT", "Etc/GMT+0", "Etc/GMT+1",
    "Etc/GMT+10", "Etc/GMT+11", "Etc/GMT+12", "Etc/GMT+2",
    "Etc/GMT+3", "Etc/GMT+4", "Etc/GMT+5", "Etc/GMT+6", "Etc/GMT+7",
    "Etc/GMT+8", "Etc/GMT+9", "Etc/GMT-0", "Etc/GMT-1",
    "Etc/GMT-10", "Etc/GMT-11", "Etc/GMT-12", "Etc/GMT-13",
    "Etc/GMT-14", "Etc/GMT-2", "Etc/GMT-3", "Etc/GMT-4",
    "Etc/GMT-5", "Etc/GMT-6", "Etc/GMT-7", "Etc/GMT-8", "Etc/GMT-9",
    "Etc/GMT0", "Africa/Gaborone", "Pacific/Galapagos",
    "Pacific/Gambier", "Asia/Gaza", "Europe/Gibraltar",
    "America/Glace_Bay", "America/Godthab", "America/Goose_Bay",
    "America/Grand_Turk", "Etc/Greenwich", "America/Grenada",
    "Pacific/Guadalcanal", "America/Guadeloupe", "Pacific/Guam",
    "America/Guatemala", "America/Guayaquil", "Europe/Guernsey",
    "America/Guyana", "America/Halifax", "Africa/Harare",
    "Asia/Harbin", "America/Havana", "Asia/Hebron",
    "Europe/Helsinki", "America/Hermosillo", "Asia/Ho_Chi_Minh",
    "Australia/Hobart", "Asia/Hong_Kong", "Pacific/Honolulu",
    "Asia/Hovd", "America/Indianapolis", "America/Inuvik",
    "America/Iqaluit", "Asia/Irkutsk", "Europe/Isle_of_Man",
    "Europe/Istanbul", "Asia/Jakarta", "America/Jamaica",
    "Atlantic/Jan_Mayen", "Asia/Jayapura", "Europe/Jersey",
    "Asia/Jerusalem", "Africa/Johannesburg", "Pacific/Johnston",
    "Africa/Juba", "America/Jujuy", "America/Juneau", "Asia/Kabul",
    "Europe/Kaliningrad", "Asia/Kamchatka", "Africa/Kampala",
    "Pacific/Kanton", "Asia/Karachi", "Asia/Kashgar",
    "Asia/Kathmandu", "Asia/Katmandu", "Indian/Kerguelen",
    "Asia/Khandyga", "Africa/Khartoum", "Europe/Kiev",
    "Africa/Kigali", "Africa/Kinshasa", "Pacific/Kiritimati",
    "Europe/Kirov", "America/Indiana/Knox", "America/Knox_IN",
    "Asia/Kolkata", "Pacific/Kosrae", "America/Kralendijk",
    "Asia/Krasnoyarsk", "Asia/Kuala_Lumpur", "Asia/Kuching",
    "Asia/Kuwait", "Pacific/Kwajalein", "Europe/Kyiv",
    "Australia/LHI", "America/La_Paz", "America/Argentina/La_Rioja",
    "Africa/Lagos", "Africa/Libreville", "America/Lima",
    "Australia/Lindeman", "Europe/Lisbon", "Europe/Ljubljana",
    "Africa/Lome", "Europe/London", "Australia/Lord_Howe",
    "America/Los_Angeles", "America/Louisville",
    "America/Lower_Princes", "Africa/Luanda", "Africa/Lubumbashi",
    "Africa/Lusaka", "Europe/Luxembourg", "Asia/Macao",
    "Asia/Macau", "America/Maceio", "Antarctica/Macquarie",
    "Atlantic/Madeira", "Europe/Madrid", "Asia/Magadan",
    "Indian/Mahe", "Pacific/Majuro", "Asia/Makassar",
    "Africa/Malabo", "Indian/Maldives", "Europe/Malta",
    "America/Managua", "America/Manaus", "Asia/Manila",
    "Africa/Maputo", "America/Indiana/Marengo", "Europe/Mariehamn",
    "America/Marigot", "Pacific/Marquesas", "America/Martinique",
    "Africa/Maseru", "America/Matamoros", "Indian/Mauritius",
    "Antarctica/Mawson", "Indian/Mayotte", "America/Mazatlan",
    "Africa/Mbabane", "Antarctica/McMurdo", "Australia/Melbourne",
    "America/Mendoza", "America/Menominee", "America/Merida",
    "America/Metlakatla", "America/Mexico_City", "Pacific/Midway",
    "Europe/Minsk", "America/Miquelon", "Africa/Mogadishu",
    "Europe/Monaco", "America/Moncton", "Africa/Monrovia",
    "America/Monterrey", "America/Montevideo",
    "America/Kentucky/Monticello", "America/Montreal",
    "America/Montserrat", "Europe/Moscow", "Asia/Muscat",
    "Australia/NSW", "Africa/Nairobi", "America/Nassau",
    "Pacific/Nauru", "Africa/Ndjamena",
    "America/North_Dakota/New_Salem", "America/New_York",
    "Africa/Niamey", "Europe/Nicosia", "America/Nipigon",
    "Pacific/Niue", "America/Nome", "Pacific/Norfolk",
    "America/Noronha", "Australia/North", "Africa/Nouakchott",
    "Pacific/Noumea", "Asia/Novokuznetsk", "Asia/Novosibirsk",
    "America/Nuuk", "America/Ojinaga", "Asia/Omsk", "Asia/Oral",
    "Europe/Oslo", "Africa/Ouagadougou", "Pacific/Pago_Pago",
    "Pacific/Palau", "Antarctica/Palmer", "America/Panama",
    "America/Pangnirtung", "America/Paramaribo", "Europe/Paris",
    "Australia/Perth", "America/Indiana/Petersburg",
    "Asia/Phnom_Penh", "America/Phoenix", "Pacific/Pitcairn",
    "Europe/Podgorica", "Pacific/Pohnpei", "Pacific/Ponape",
    "Asia/Pontianak", "America/Port-au-Prince",
    "Pacific/Port_Moresby", "America/Port_of_Spain",
    "Africa/Porto-Novo", "America/Porto_Acre",
    "America/Porto_Velho", "Europe/Prague", "America/Puerto_Rico",
    "America/Punta_Arenas", "Asia/Pyongyang", "Asia/Qatar",
    "Asia/Qostanay", "Australia/Queensland", "Asia/Qyzylorda",
    "America/Rainy_River", "Asia/Rangoon", "America/Rankin_Inlet",
    "Pacific/Rarotonga", "America/Recife", "America/Regina",
    "America/Resolute", "Indian/Reunion", "Atlantic/Reykjavik",
    "Europe/Riga", "America/Rio_Branco",
    "America/Argentina/Rio_Gallegos", "Asia/Riyadh", "Europe/Rome",
    "America/Rosario", "Antarctica/Rothera", "Asia/Saigon",
    "Pacific/Saipan", "Asia/Sakhalin", "America/Argentina/Salta",
    "Europe/Samara", "Asia/Samarkand", "Pacific/Samoa",
    "America/Argentina/San_Juan", "America/Argentina/San_Luis",
    "Europe/San_Marino", "America/Santa_Isabel", "America/Santarem",
    "America/Santiago", "America/Santo_Domingo",
    "America/Sao_Paulo", "Africa/Sao_Tome", "Europe/Sarajevo",
    "Europe/Saratov", "America/Scoresbysund", "Asia/Seoul",
    "Asia/Shanghai", "America/Shiprock", "Europe/Simferopol",
    "Asia/Singapore", "America/Sitka", "Europe/Skopje",
    "Europe/Sofia", "Australia/South", "Atlantic/South_Georgia",
    "Antarctica/South_Pole", "Asia/Srednekolymsk",
    "America/St_Barthelemy", "Atlantic/St_Helena",
    "America/St_Johns", "America/St_Kitts", "America/St_Lucia",
    "America/St_Thomas", "America/St_Vincent", "Atlantic/Stanley",
    "Europe/Stockholm", "America/Swift_Current", "Australia/Sydney",
    "Antarctica/Syowa", "Pacific/Tahiti", "Asia/Taipei",
    "Europe/Tallinn", "Pacific/Tarawa", "Asia/Tashkent",
    "Australia/Tasmania", "Asia/Tbilisi", "America/Tegucigalpa",
    "Asia/Tehran", "Asia/Tel_Aviv", "America/Indiana/Tell_City",
    "Asia/Thimbu", "Asia/Thimphu", "America/Thule",
    "America/Thunder_Bay", "America/Tijuana", "Africa/Timbuktu",
    "Europe/Tirane", "Europe/Tiraspol", "Asia/Tokyo", "Asia/Tomsk",
    "Pacific/Tongatapu", "America/Toronto", "America/Tortola",
    "Africa/Tripoli", "Antarctica/Troll", "Pacific/Truk",
    "America/Argentina/Tucuman", "Africa/Tunis", "Etc/UCT",
    "Etc/UTC", "Asia/Ujung_Pandang", "Asia/Ulaanbaatar",
    "Asia/Ulan_Bator", "Europe/Ulyanovsk", "Etc/Universal",
    "Asia/Urumqi", "America/Argentina/Ushuaia", "Asia/Ust-Nera",
    "Europe/Uzhgorod", "Europe/Vaduz", "America/Vancouver",
    "Europe/Vatican", "America/Indiana/Vevay", "Australia/Victoria",
    "Europe/Vienna", "Asia/Vientiane", "Europe/Vilnius",
    "America/Indiana/Vincennes", "America/Virgin",
    "Asia/Vladivostok", "Europe/Volgograd", "Antarctica/Vostok",
    "Pacific/Wake", "Pacific/Wallis", "Europe/Warsaw",
    "Australia/West", "America/Whitehorse",
    "America/Indiana/Winamac", "Africa/Windhoek",
    "America/Winnipeg", "America/Yakutat", "Asia/Yakutsk",
    "Australia/Yancowinna", "Asia/Yangon", "Pacific/Yap",
    "Asia/Yekaterinburg", "America/Yellowknife", "Asia/Yerevan",
    "Europe/Zagreb", "Europe/Zaporozhye", "Etc/Zulu",
    "Europe/Zurich"]

/- The last part of an id. -/
def regionName (id : String) : String :=
  String.ofList
    ((id.toList.reverse.takeWhile (· ≠ '/')).reverse)

end Haystack
